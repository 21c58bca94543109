namespace LuaLowering.Polyfill.Body

/-! Classes, construction, membership, bound functions and the error classes. -/

def class' : List String :=
  ["local function __TS__Class()",
    "    local c = \x7bprototype = \x7b\x7d\x7d",
    "    c.prototype.__index = c.prototype",
    "    c.prototype.constructor = c",
    "    return c",
    "end"]

def classExtends : List String :=
  ["local function __TS__ClassExtends(target, base)",
    "    target.____super = base",
    "    local staticMetatable = setmetatable(\x7b__index = base\x7d, base)",
    "    setmetatable(target, staticMetatable)",
    "    local baseMetatable = getmetatable(base)",
    "    if baseMetatable then",
    "        if type(baseMetatable.__index) == \"function\" then",
    "            staticMetatable.__index = baseMetatable.__index",
    "        end",
    "        if type(baseMetatable.__newindex) == \"function\" then",
    "            staticMetatable.__newindex = baseMetatable.__newindex",
    "        end",
    "    end",
    "    setmetatable(target.prototype, base.prototype)",
    "    if type(base.prototype.__index) == \"function\" then",
    "        target.prototype.__index = base.prototype.__index",
    "    end",
    "    if type(base.prototype.__newindex) == \"function\" then",
    "        target.prototype.__newindex = base.prototype.__newindex",
    "    end",
    "    if type(base.prototype.__tostring) == \"function\" then",
    "        target.prototype.__tostring = base.prototype.__tostring",
    "    end",
    "end"]

def new : List String :=
  ["local function __TS__New(target, ...)",
    "    local instance = setmetatable(\x7b\x7d, target.prototype)",
    "    instance:____constructor(...)",
    "    return instance",
    "end"]

def instanceOf : List String :=
  ["local function __TS__InstanceOf(obj, classTbl)",
    "    if type(classTbl) ~= \"table\" then",
    "        error(\"Right-hand side of 'instanceof' is not an object\", 0)",
    "    end",
    "    if classTbl[Symbol.hasInstance] ~= nil then",
    "        return not not classTbl[Symbol.hasInstance](classTbl, obj)",
    "    end",
    "    if type(obj) == \"table\" then",
    "        local luaClass = obj.constructor",
    "        while luaClass ~= nil do",
    "            if luaClass == classTbl then",
    "                return true",
    "            end",
    "            luaClass = luaClass.____super",
    "        end",
    "    end",
    "    return false",
    "end"]

def functionBind : List String :=
  ["local function __TS__FunctionBind(fn, ...)",
    "    local boundArgs = \x7b...\x7d",
    "    local boundCount = select(\"#\", ...)",
    "    return function(____, ...)",
    "        local args = \x7b\x7d",
    "        for i = 1, boundCount do",
    "            args[i] = boundArgs[i]",
    "        end",
    "        local extra = \x7b...\x7d",
    "        local extraCount = select(\"#\", ...)",
    "        for i = 1, extraCount do",
    "            args[boundCount + i] = extra[i]",
    "        end",
    "        return fn(unpack and unpack(args, 1, boundCount + extraCount) or table.unpack(args, 1, boundCount + extraCount))",
    "    end",
    "end"]

def error : List String :=
  ["local Error, RangeError, ReferenceError, SyntaxError, TypeError, URIError",
    "do",
    "    local function getErrorStack(constructor)",
    "        local level = 1",
    "        while true do",
    "            local info = debug.getinfo(level, \"f\")",
    "            level = level + 1",
    "            if not info then",
    "                level = 1",
    "                break",
    "            elseif info.func == constructor then",
    "                break",
    "            end",
    "        end",
    "        return debug.traceback(nil, level)",
    "    end",
    "",
    "    local function wrapErrorToString(getDescription)",
    "        return function(self)",
    "            local description = getDescription(self)",
    "            local caller = debug.getinfo(3, \"f\")",
    "            if caller and caller.func == error then",
    "                return description",
    "            end",
    "            return description .. \"\\n\" .. tostring(self.stack)",
    "        end",
    "    end",
    "",
    "    local function initErrorClass(Type, name)",
    "        Type.name = name",
    "        return setmetatable(Type, \x7b",
    "            __call = function(_, message)",
    "                return __TS__New(Type, message)",
    "            end",
    "        \x7d)",
    "    end",
    "",
    "    Error = initErrorClass(__TS__Class(), \"Error\")",
    "",
    "    function Error.prototype.____constructor(self, message)",
    "        self.message = message or \"\"",
    "        self.name = \"Error\"",
    "        self.stack = getErrorStack(self.constructor.new)",
    "        local metatable = getmetatable(self)",
    "        if not metatable.__errorToStringPatched then",
    "            metatable.__errorToStringPatched = true",
    "            metatable.__tostring = wrapErrorToString(metatable.__tostring)",
    "        end",
    "    end",
    "",
    "    function Error.prototype.__tostring(self)",
    "        if self.message ~= \"\" then",
    "            return self.name .. \": \" .. self.message",
    "        end",
    "        return self.name",
    "    end",
    "",
    "    local function createErrorClass(name)",
    "        local Class = initErrorClass(__TS__Class(), name)",
    "        __TS__ClassExtends(Class, Error)",
    "        function Class.prototype.____constructor(self, ...)",
    "            Error.prototype.____constructor(self, ...)",
    "            self.name = name",
    "        end",
    "        return Class",
    "    end",
    "",
    "    RangeError = createErrorClass(\"RangeError\")",
    "    ReferenceError = createErrorClass(\"ReferenceError\")",
    "    SyntaxError = createErrorClass(\"SyntaxError\")",
    "    TypeError = createErrorClass(\"TypeError\")",
    "    URIError = createErrorClass(\"URIError\")",
    "end"]

end LuaLowering.Polyfill.Body
