namespace LuaLowering.Polyfill.Body

/-! Array routines and the spreading of tables into values. -/

def arrayPush : List String :=
  ["local function __TS__ArrayPush(self, ...)",
    "    local items = \x7b...\x7d",
    "    local len = #self",
    "    for i = 1, select(\"#\", ...) do",
    "        len = len + 1",
    "        self[len] = items[i]",
    "    end",
    "    return len",
    "end"]

def arraySplice : List String :=
  ["local function __TS__ArraySplice(self, ...)",
    "    local args = \x7b...\x7d",
    "    local argc = select(\"#\", ...)",
    "    local len = #self",
    "",
    "    local start = args[1] or 0",
    "    local actualStart",
    "    if start < 0 then",
    "        actualStart = math.max(len + start, 0)",
    "    else",
    "        actualStart = math.min(start, len)",
    "    end",
    "",
    "    local itemCount = math.max(argc - 2, 0)",
    "",
    "    local actualDeleteCount",
    "    if argc == 0 then",
    "        actualDeleteCount = 0",
    "    elseif argc == 1 then",
    "        actualDeleteCount = len - actualStart",
    "    else",
    "        actualDeleteCount = math.min(math.max(args[2] or 0, 0), len - actualStart)",
    "    end",
    "",
    "    -- holes stay holes in the result",
    "    local out = \x7b\x7d",
    "    for k = 1, actualDeleteCount do",
    "        local from = actualStart + k",
    "        if self[from] ~= nil then",
    "            out[k] = self[from]",
    "        end",
    "    end",
    "",
    "    if itemCount < actualDeleteCount then",
    "        for k = actualStart + 1, len - actualDeleteCount do",
    "            self[k + itemCount] = self[k + actualDeleteCount]",
    "        end",
    "    elseif itemCount > actualDeleteCount then",
    "        for k = len - actualDeleteCount, actualStart + 1, -1 do",
    "            self[k + itemCount] = self[k + actualDeleteCount]",
    "        end",
    "    end",
    "",
    "    for i = 1, itemCount do",
    "        self[actualStart + i] = args[i + 2]",
    "    end",
    "",
    "    local newLength = len - actualDeleteCount + itemCount",
    "    for k = len, newLength + 1, -1 do",
    "        self[k] = nil",
    "    end",
    "",
    "    return out",
    "end"]

def unpack : List String :=
  ["local __TS__Unpack = table.unpack or unpack"]

end LuaLowering.Polyfill.Body
