namespace LuaLowering.Polyfill.Body

/-! Symbols and iteration. -/

def symbol : List String :=
  ["local ____symbolMetatable = \x7b",
    "    __tostring = function(self)",
    "        return (\"Symbol(\" .. (self.description or \"\")) .. \")\"",
    "    end",
    "\x7d",
    "",
    "local function __TS__Symbol(description)",
    "    return setmetatable(\x7bdescription = description\x7d, ____symbolMetatable)",
    "end",
    "",
    "Symbol = \x7b",
    "    asyncIterator = __TS__Symbol(\"Symbol.asyncIterator\"),",
    "    hasInstance = __TS__Symbol(\"Symbol.hasInstance\"),",
    "    iterator = __TS__Symbol(\"Symbol.iterator\"),",
    "    species = __TS__Symbol(\"Symbol.species\"),",
    "    toStringTag = __TS__Symbol(\"Symbol.toStringTag\")",
    "\x7d"]

def iterator : List String :=
  ["local function __TS__IteratorGeneratorStep(self)",
    "    local co = self.____coroutine",
    "    local status, value = coroutine.resume(co)",
    "    if not status then",
    "        error(value, 0)",
    "    end",
    "    if coroutine.status(co) == \"dead\" then",
    "        return",
    "    end",
    "    return true, value",
    "end",
    "",
    "local function __TS__IteratorIteratorStep(self)",
    "    local result = self:next()",
    "    if result.done then",
    "        return",
    "    end",
    "    return true, result.value",
    "end",
    "",
    "local function __TS__IteratorStringStep(self, index)",
    "    index = index + 1",
    "    if index > #self then",
    "        return",
    "    end",
    "    return index, string.sub(self, index, index)",
    "end",
    "",
    "local function __TS__Iterator(iterable)",
    "    if type(iterable) == \"string\" then",
    "        return __TS__IteratorStringStep, iterable, 0",
    "    elseif iterable.____coroutine ~= nil then",
    "        return __TS__IteratorGeneratorStep, iterable",
    "    elseif iterable[Symbol.iterator] then",
    "        local iterator = iterable[Symbol.iterator](iterable)",
    "        return __TS__IteratorIteratorStep, iterator",
    "    else",
    "        return ipairs(iterable)",
    "    end",
    "end"]

end LuaLowering.Polyfill.Body
