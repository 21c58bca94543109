import LuaLowering.Lua.Expr
import LuaLowering.Lua.Lexeme

namespace LuaLowering.Lua

/-! Expressions as one line of Lua. -/

namespace Expr

/-- Operators inside operators are parenthesised, whatever their precedence. -/
def isOperation : Expr → Bool
  | binary .. => true
  | unary .. => true
  | _ => false

/-- What Lua lets be indexed without parentheses. -/
def isIndexable : Expr → Bool
  | ident _ => true
  | index .. => true
  | call .. => true
  | _ => false

/-- A key that can be written after a dot. -/
def dotKey? : Expr → Option String
  | string key => if isIdentifier key then some key else none
  | _ => none

def parenthesise (needed : Bool) (text : List Char) : List Char :=
  if needed then '(' :: text ++ [')'] else text

mutual

def render : Expr → List Char
  | nil => "nil".toList
  | dots => "...".toList
  | boolean value => if value then "true".toList else "false".toList
  | numeric value => numeral value
  | string value => quote value
  | ident word => word.text.toList
  | index table key =>
      let access := match dotKey? key with
        | some word => '.' :: word.toList
        | none => '[' :: render key ++ [']']
      parenthesise (!table.isIndexable) (render table) ++ access
  | binary op left right =>
      parenthesise left.isOperation (render left) ++ ' ' :: op.text.toList ++
        ' ' :: parenthesise right.isOperation (render right)
  | unary op operand =>
      op.text.toList ++ parenthesise operand.isOperation (render operand)
  | call callee arguments => render callee ++ '(' :: renderList arguments ++ [')']
  | multiple values => renderList values
  | numericRange start limit step =>
      render start ++ ',' :: ' ' :: render limit ++ renderStep step

def renderList : List Expr → List Char
  | [] => []
  | first :: rest => render first ++ renderRest rest

def renderRest : List Expr → List Char
  | [] => []
  | next :: rest => ',' :: ' ' :: render next ++ renderRest rest

def renderStep : Option Expr → List Char
  | none => []
  | some step => ',' :: ' ' :: render step

end

def text (expr : Expr) : String := String.ofList expr.render

end Expr

end LuaLowering.Lua
