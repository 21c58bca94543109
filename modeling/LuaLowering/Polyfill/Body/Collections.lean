namespace LuaLowering.Polyfill.Body

/-! Keyed collections. -/

def map : List String :=
  ["local Map",
    "do",
    "    Map = __TS__Class()",
    "    Map.name = \"Map\"",
    "",
    "    function Map.prototype.____constructor(self, entries)",
    "        self[Symbol.toStringTag] = \"Map\"",
    "        self.items = \x7b\x7d",
    "        self.size = 0",
    "        self.nextKey = \x7b\x7d",
    "        self.previousKey = \x7b\x7d",
    "        if entries == nil then",
    "            return",
    "        end",
    "        for _, entry in __TS__Iterator(entries) do",
    "            self:set(entry[1], entry[2])",
    "        end",
    "    end",
    "",
    "    function Map.prototype.clear(self)",
    "        self.items = \x7b\x7d",
    "        self.nextKey = \x7b\x7d",
    "        self.previousKey = \x7b\x7d",
    "        self.firstKey = nil",
    "        self.lastKey = nil",
    "        self.size = 0",
    "    end",
    "",
    "    function Map.prototype.delete(self, key)",
    "        local contains = self:has(key)",
    "        if contains then",
    "            self.size = self.size - 1",
    "            local next = self.nextKey[key]",
    "            local previous = self.previousKey[key]",
    "            if next ~= nil and previous ~= nil then",
    "                self.nextKey[previous] = next",
    "                self.previousKey[next] = previous",
    "            elseif next ~= nil then",
    "                self.firstKey = next",
    "                self.previousKey[next] = nil",
    "            elseif previous ~= nil then",
    "                self.lastKey = previous",
    "                self.nextKey[previous] = nil",
    "            else",
    "                self.firstKey = nil",
    "                self.lastKey = nil",
    "            end",
    "            self.nextKey[key] = nil",
    "            self.previousKey[key] = nil",
    "        end",
    "        self.items[key] = nil",
    "        return contains",
    "    end",
    "",
    "    function Map.prototype.forEach(self, callback)",
    "        local key = self.firstKey",
    "        while key ~= nil do",
    "            callback(nil, self.items[key], key, self)",
    "            key = self.nextKey[key]",
    "        end",
    "    end",
    "",
    "    function Map.prototype.get(self, key)",
    "        return self.items[key]",
    "    end",
    "",
    "    function Map.prototype.has(self, key)",
    "        return self.nextKey[key] ~= nil or self.lastKey == key",
    "    end",
    "",
    "    function Map.prototype.set(self, key, value)",
    "        local isNewValue = not self:has(key)",
    "        if isNewValue then",
    "            self.size = self.size + 1",
    "        end",
    "        self.items[key] = value",
    "        if self.firstKey == nil then",
    "            self.firstKey = key",
    "            self.lastKey = key",
    "        elseif isNewValue then",
    "            self.nextKey[self.lastKey] = key",
    "            self.previousKey[key] = self.lastKey",
    "            self.lastKey = key",
    "        end",
    "        return self",
    "    end",
    "",
    "    Map.prototype[Symbol.iterator] = function(self)",
    "        return self:entries()",
    "    end",
    "",
    "    function Map.prototype.entries(self)",
    "        local items = self.items",
    "        local nextKey = self.nextKey",
    "        local key = self.firstKey",
    "        return \x7b",
    "            [Symbol.iterator] = function(self)",
    "                return self",
    "            end,",
    "            next = function(self)",
    "                local result = \x7bdone = not key, value = \x7bkey, items[key]\x7d\x7d",
    "                key = nextKey[key]",
    "                return result",
    "            end",
    "        \x7d",
    "    end",
    "",
    "    function Map.prototype.keys(self)",
    "        local nextKey = self.nextKey",
    "        local key = self.firstKey",
    "        return \x7b",
    "            [Symbol.iterator] = function(self)",
    "                return self",
    "            end,",
    "            next = function(self)",
    "                local result = \x7bdone = not key, value = key\x7d",
    "                key = nextKey[key]",
    "                return result",
    "            end",
    "        \x7d",
    "    end",
    "",
    "    function Map.prototype.values(self)",
    "        local items = self.items",
    "        local nextKey = self.nextKey",
    "        local key = self.firstKey",
    "        return \x7b",
    "            [Symbol.iterator] = function(self)",
    "                return self",
    "            end,",
    "            next = function(self)",
    "                local result = \x7bdone = not key, value = items[key]\x7d",
    "                key = nextKey[key]",
    "                return result",
    "            end",
    "        \x7d",
    "    end",
    "end"]

def set : List String :=
  ["local Set",
    "do",
    "    Set = __TS__Class()",
    "    Set.name = \"Set\"",
    "",
    "    function Set.prototype.____constructor(self, values)",
    "        self[Symbol.toStringTag] = \"Set\"",
    "        self.size = 0",
    "        self.nextKey = \x7b\x7d",
    "        self.previousKey = \x7b\x7d",
    "        if values == nil then",
    "            return",
    "        end",
    "        for _, value in __TS__Iterator(values) do",
    "            self:add(value)",
    "        end",
    "    end",
    "",
    "    function Set.prototype.add(self, value)",
    "        local isNewValue = not self:has(value)",
    "        if isNewValue then",
    "            self.size = self.size + 1",
    "        end",
    "        if self.firstKey == nil then",
    "            self.firstKey = value",
    "            self.lastKey = value",
    "        elseif isNewValue then",
    "            self.nextKey[self.lastKey] = value",
    "            self.previousKey[value] = self.lastKey",
    "            self.lastKey = value",
    "        end",
    "        return self",
    "    end",
    "",
    "    function Set.prototype.clear(self)",
    "        self.nextKey = \x7b\x7d",
    "        self.previousKey = \x7b\x7d",
    "        self.firstKey = nil",
    "        self.lastKey = nil",
    "        self.size = 0",
    "    end",
    "",
    "    function Set.prototype.delete(self, value)",
    "        local contains = self:has(value)",
    "        if contains then",
    "            self.size = self.size - 1",
    "            local next = self.nextKey[value]",
    "            local previous = self.previousKey[value]",
    "            if next ~= nil and previous ~= nil then",
    "                self.nextKey[previous] = next",
    "                self.previousKey[next] = previous",
    "            elseif next ~= nil then",
    "                self.firstKey = next",
    "                self.previousKey[next] = nil",
    "            elseif previous ~= nil then",
    "                self.lastKey = previous",
    "                self.nextKey[previous] = nil",
    "            else",
    "                self.firstKey = nil",
    "                self.lastKey = nil",
    "            end",
    "            self.nextKey[value] = nil",
    "            self.previousKey[value] = nil",
    "        end",
    "        return contains",
    "    end",
    "",
    "    function Set.prototype.forEach(self, callback)",
    "        local key = self.firstKey",
    "        while key ~= nil do",
    "            callback(nil, key, key, self)",
    "            key = self.nextKey[key]",
    "        end",
    "    end",
    "",
    "    function Set.prototype.has(self, value)",
    "        return self.nextKey[value] ~= nil or self.lastKey == value",
    "    end",
    "",
    "    Set.prototype[Symbol.iterator] = function(self)",
    "        return self:values()",
    "    end",
    "",
    "    function Set.prototype.values(self)",
    "        local nextKey = self.nextKey",
    "        local key = self.firstKey",
    "        return \x7b",
    "            [Symbol.iterator] = function(self)",
    "                return self",
    "            end,",
    "            next = function(self)",
    "                local result = \x7bdone = not key, value = key\x7d",
    "                key = nextKey[key]",
    "                return result",
    "            end",
    "        \x7d",
    "    end",
    "",
    "    Set.prototype.keys = Set.prototype.values",
    "end"]

def weakMap : List String :=
  ["local WeakMap",
    "do",
    "    WeakMap = __TS__Class()",
    "    WeakMap.name = \"WeakMap\"",
    "",
    "    function WeakMap.prototype.____constructor(self, entries)",
    "        self[Symbol.toStringTag] = \"WeakMap\"",
    "        self.items = setmetatable(\x7b\x7d, \x7b__mode = \"k\"\x7d)",
    "        if entries == nil then",
    "            return",
    "        end",
    "        for _, entry in __TS__Iterator(entries) do",
    "            self.items[entry[1]] = entry[2]",
    "        end",
    "    end",
    "",
    "    function WeakMap.prototype.delete(self, key)",
    "        local contains = self:has(key)",
    "        self.items[key] = nil",
    "        return contains",
    "    end",
    "",
    "    function WeakMap.prototype.get(self, key)",
    "        return self.items[key]",
    "    end",
    "",
    "    function WeakMap.prototype.has(self, key)",
    "        return self.items[key] ~= nil",
    "    end",
    "",
    "    function WeakMap.prototype.set(self, key, value)",
    "        self.items[key] = value",
    "        return self",
    "    end",
    "end"]

def weakSet : List String :=
  ["local WeakSet",
    "do",
    "    WeakSet = __TS__Class()",
    "    WeakSet.name = \"WeakSet\"",
    "",
    "    function WeakSet.prototype.____constructor(self, values)",
    "        self[Symbol.toStringTag] = \"WeakSet\"",
    "        self.items = setmetatable(\x7b\x7d, \x7b__mode = \"k\"\x7d)",
    "        if values == nil then",
    "            return",
    "        end",
    "        for _, value in __TS__Iterator(values) do",
    "            self.items[value] = true",
    "        end",
    "    end",
    "",
    "    function WeakSet.prototype.add(self, value)",
    "        self.items[value] = true",
    "        return self",
    "    end",
    "",
    "    function WeakSet.prototype.delete(self, value)",
    "        local contains = self:has(value)",
    "        self.items[value] = nil",
    "        return contains",
    "    end",
    "",
    "    function WeakSet.prototype.has(self, value)",
    "        return self.items[value] == true",
    "    end",
    "end"]

end LuaLowering.Polyfill.Body
