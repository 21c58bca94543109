namespace LuaLowering.Polyfill.Body

/-! Promises. -/

def promise : List String :=
  ["local __TS__Promise",
    "do",
    "    local PENDING = 0",
    "    local FULFILLED = 1",
    "    local REJECTED = 2",
    "",
    "    local function isPromiseLike(value)",
    "        return __TS__InstanceOf(value, __TS__Promise)",
    "    end",
    "",
    "    __TS__Promise = __TS__Class()",
    "    __TS__Promise.name = \"__TS__Promise\"",
    "",
    "    function __TS__Promise.prototype.____constructor(self, executor)",
    "        self.state = PENDING",
    "        self.fulfilledCallbacks = \x7b\x7d",
    "        self.rejectedCallbacks = \x7b\x7d",
    "        self.finallyCallbacks = \x7b\x7d",
    "        local resolve = __TS__FunctionBind(self.resolve, self)",
    "        local reject = __TS__FunctionBind(self.reject, self)",
    "        local ok, err = pcall(executor, nil, resolve, reject)",
    "        if not ok then",
    "            self:reject(err)",
    "        end",
    "    end",
    "",
    "    function __TS__Promise.resolve(value)",
    "        if isPromiseLike(value) then",
    "            return value",
    "        end",
    "        local promise = __TS__New(__TS__Promise, function() end)",
    "        promise.state = FULFILLED",
    "        promise.value = value",
    "        return promise",
    "    end",
    "",
    "    function __TS__Promise.reject(reason)",
    "        local promise = __TS__New(__TS__Promise, function() end)",
    "        promise.state = REJECTED",
    "        promise.rejectionReason = reason",
    "        return promise",
    "    end",
    "",
    "    __TS__Promise.prototype[\"then\"] = function(self, onFulfilled, onRejected)",
    "        local outer = __TS__New(__TS__Promise, function() end)",
    "        local function settle(callback, argument, fallback)",
    "            return function()",
    "                if callback == nil then",
    "                    fallback(outer, argument())",
    "                    return",
    "                end",
    "                local ok, result = pcall(callback, nil, argument())",
    "                if not ok then",
    "                    outer:reject(result)",
    "                elseif isPromiseLike(result) then",
    "                    result[\"then\"](",
    "                        result,",
    "                        function(_, value) outer:resolve(value) end,",
    "                        function(_, reason) outer:reject(reason) end",
    "                    )",
    "                else",
    "                    outer:resolve(result)",
    "                end",
    "            end",
    "        end",
    "        local fulfilled = settle(onFulfilled, function() return self.value end, outer.resolve)",
    "        local rejected = settle(onRejected, function() return self.rejectionReason end, outer.reject)",
    "        if self.state == FULFILLED then",
    "            fulfilled()",
    "        elseif self.state == REJECTED then",
    "            rejected()",
    "        else",
    "            __TS__ArrayPush(self.fulfilledCallbacks, fulfilled)",
    "            __TS__ArrayPush(self.rejectedCallbacks, rejected)",
    "        end",
    "        return outer",
    "    end",
    "",
    "    function __TS__Promise.prototype.catch(self, onRejected)",
    "        return self[\"then\"](self, nil, onRejected)",
    "    end",
    "",
    "    function __TS__Promise.prototype.finally(self, onFinally)",
    "        if onFinally then",
    "            __TS__ArrayPush(self.finallyCallbacks, onFinally)",
    "            if self.state ~= PENDING then",
    "                onFinally(nil)",
    "            end",
    "        end",
    "        return self",
    "    end",
    "",
    "    function __TS__Promise.prototype.resolve(self, value)",
    "        if self.state ~= PENDING then",
    "            return",
    "        end",
    "        if isPromiseLike(value) then",
    "            value[\"then\"](",
    "                value,",
    "                function(_, inner) self:resolve(inner) end,",
    "                function(_, reason) self:reject(reason) end",
    "            )",
    "            return",
    "        end",
    "        self.state = FULFILLED",
    "        self.value = value",
    "        for _, callback in ipairs(self.fulfilledCallbacks) do",
    "            callback()",
    "        end",
    "        for _, callback in ipairs(self.finallyCallbacks) do",
    "            callback(nil)",
    "        end",
    "    end",
    "",
    "    function __TS__Promise.prototype.reject(self, reason)",
    "        if self.state ~= PENDING then",
    "            return",
    "        end",
    "        self.state = REJECTED",
    "        self.rejectionReason = reason",
    "        for _, callback in ipairs(self.rejectedCallbacks) do",
    "            callback()",
    "        end",
    "        for _, callback in ipairs(self.finallyCallbacks) do",
    "            callback(nil)",
    "        end",
    "    end",
    "end"]

end LuaLowering.Polyfill.Body
