import ThreeAddress.Dict
import ThreeAddress.Sieve

/-!
# Symbol tables

A table holds the live declarations in the order in which they were made, for every name a stack of
its declarations, and the stack of open scopes.  A name is unique within its scope; an inner scope
may shadow an outer name, and the shadow goes when its scope is left.  Every variable gets an
address of its own.
-/

namespace ThreeAddress

/-- The type recorded for a symbol. -/
inductive DataType where
  | number | string | boolean | void
deriving DecidableEq, Repr, Inhabited

namespace DataType

/-- The name of a type. -/
def name : DataType → Text
  | number => "number"
  | string => "string"
  | boolean => "boolean"
  | void => "void"

/-- The type of a name. -/
def ofName? (t : Text) : Option DataType := [number, string, boolean, void].find? (·.name == t)

end DataType

/-- A declaration.  Functions have no address. -/
structure Symbol where
  name : Text
  type : DataType
  scope : Nat
  isFunction : Bool := false
  params : List DataType := []
  address : Option Nat := none
deriving DecidableEq, Repr, Inhabited

/-- Why a table refuses a declaration or finds no symbol. -/
inductive SymbolError where
  | redeclaredVariable (name : Text)
  | redeclaredFunction (name : Text)
  | noVariable (name : Text)
  | noFunction (name : Text)
deriving DecidableEq, Repr

namespace SymbolError

/-- Whether a name was declared twice. -/
def isRedeclaration : SymbolError → Bool
  | redeclaredVariable _ | redeclaredFunction _ => true
  | _ => false

/-- The wording of the error. -/
def message : SymbolError → Text
  | redeclaredVariable name =>
    "variable '" ++ name ++ "' already declared in current scope: symbol redeclared"
  | redeclaredFunction name => "function '" ++ name ++ "' already declared: symbol redeclared"
  | noVariable name => "variable '" ++ name ++ "' not found: symbol not found"
  | noFunction name => "function '" ++ name ++ "' not found: symbol not found"

end SymbolError

/-- The stacks of declarations by name, with the innermost last. -/
abbrev SymbolStacks := Dict (List Symbol)

namespace SymbolStacks

/-- The declarations of a name; a name that is not there has none. -/
def of (byName : SymbolStacks) (name : Text) : List Symbol := (byName.get? name).getD []

/-- Puts a declaration on the stack of its name. -/
def push (byName : SymbolStacks) (s : Symbol) : SymbolStacks :=
  byName.insert s.name (byName.of s.name ++ [s])

/-- Takes the innermost declaration off the stack of a name, which goes if nothing is left on it.
It is `none` if there is no declaration to take. -/
def pop? (byName : SymbolStacks) (name : Text) : Option SymbolStacks :=
  if byName.of name = [] then none
  else
    let stack := (byName.of name).dropLast
    some (if stack.isEmpty then byName.erase name else byName.insert name stack)

/-- When the scope `scope` is returned to, symbols declared deeper are dropped, each with one
declaration from the stack of its name. -/
def leave (scope : Nat) (byName : Option SymbolStacks) (s : Symbol) : Bool × Option SymbolStacks :=
  if s.scope ≤ scope then (true, byName) else (false, byName.bind (pop? · s.name))

end SymbolStacks

/-- The stacks of declarations, the live symbols in the order of their declaration, the open scopes
with the innermost last, and the counters. -/
structure SymbolTable where
  byName : SymbolStacks := ∅
  symbols : List Symbol := []
  scopeStack : List Nat := [0]
  current : Nat := 0
  lastScope : Nat := 0
  nextAddress : Nat := 0
deriving Repr, Inhabited

namespace SymbolTable

/-- Opens a new scope inside the current one. -/
def enterScope (t : SymbolTable) : SymbolTable :=
  { t with
    lastScope := t.lastScope + 1
    current := t.lastScope + 1
    scopeStack := t.scopeStack ++ [t.lastScope + 1] }

/-- Leaves the current scope and drops what was declared deeper than the scope around it.  The
global scope cannot be left.  It is `none` if a symbol is dropped whose name has an empty stack. -/
def exitScope? (t : SymbolTable) : Option SymbolTable :=
  if t.scopeStack.length ≤ 1 then some t
  else
    let scopeStack := t.scopeStack.dropLast
    let current := scopeStack.getLastD 0
    let (symbols, byName) := sift (SymbolStacks.leave current) (some t.byName) t.symbols
    byName.map fun byName => { t with byName, symbols, scopeStack, current }

/-- Leaves the current scope. -/
def exitScope (t : SymbolTable) : SymbolTable := t.exitScope?.getD t

/-- The innermost symbol of a name. -/
def lookup (t : SymbolTable) (name : Text) : Option Symbol := (t.byName.of name).getLast?

/-- Adds a symbol as the last one and as the innermost of its name. -/
def insert (t : SymbolTable) (s : Symbol) : SymbolTable :=
  { t with byName := t.byName.push s, symbols := t.symbols ++ [s] }

/-- Whether the current scope declares a name. -/
def declaresHere (t : SymbolTable) (name : Text) : Bool :=
  match t.lookup name with
  | some s => s.scope == t.current
  | none => false

/-- Declares a variable at the next free address. -/
def declareVariable (t : SymbolTable) (name : Text) (type : DataType) :
    Except SymbolError SymbolTable :=
  if t.declaresHere name then .error (.redeclaredVariable name)
  else .ok
    { t.insert { name, type, scope := t.current, address := some t.nextAddress } with
      nextAddress := t.nextAddress + 1 }

/-- Declares a function. -/
def declareFunction (t : SymbolTable) (name : Text) (type : DataType) (params : List DataType) :
    Except SymbolError SymbolTable :=
  if t.declaresHere name then .error (.redeclaredFunction name)
  else .ok (t.insert { name, type, scope := t.current, isFunction := true, params })

/-- The address of a variable. -/
def addressOf (t : SymbolTable) (name : Text) : Except SymbolError Nat :=
  match t.lookup name with
  | some s => if s.isFunction then .error (.noVariable name) else .ok (s.address.getD 0)
  | none => .error (.noVariable name)

/-- The entry of a function. -/
def functionInfo (t : SymbolTable) (name : Text) : Except SymbolError Symbol :=
  match t.lookup name with
  | some s => if s.isFunction then .ok s else .error (.noFunction name)
  | none => .error (.noFunction name)

end SymbolTable

end ThreeAddress
