import FluentWrappers.Artifact.Primitive
import FluentWrappers.Source.Name

/-!
# Type references (`SPEC_FULL.md`, 10.5, `TypeRef`)

The declared type of a member: a type of the base runtime, a type of the source catalog, a type that
synthesis makes, or an array or generic instance of such types.
-/

namespace FluentWrappers

inductive TypeRef where
  | primitive (p : Primitive)
  | string
  | object
  | named (name : TypeName)
  | array (element : TypeRef)
  | generic (definition : TypeName) (args : List TypeRef)
  | synthesized (name : TypeName)
  deriving Repr, Inhabited

namespace TypeRef

mutual
def decideEq : (s t : TypeRef) → Decidable (s = t)
  | .string, .string => isTrue rfl
  | .object, .object => isTrue rfl
  | .primitive p, .primitive q =>
    if h : p = q then isTrue (by rw [h]) else isFalse (by simp [h])
  | .named a, .named b => if h : a = b then isTrue (by rw [h]) else isFalse (by simp [h])
  | .synthesized a, .synthesized b =>
    if h : a = b then isTrue (by rw [h]) else isFalse (by simp [h])
  | .array s, .array t =>
    match decideEq s t with
    | isTrue h => isTrue (by rw [h])
    | isFalse h => isFalse (by simp [h])
  | .generic d as, .generic e bs =>
    if h : d = e then
      match decideEqAll as bs with
      | isTrue g => isTrue (by rw [h, g])
      | isFalse g => isFalse (by simp [g])
    else isFalse (by simp [h])
  | .primitive _, .string | .primitive _, .object | .primitive _, .named _ | .primitive _, .array _
  | .primitive _, .generic _ _ | .primitive _, .synthesized _ | .string, .primitive _
  | .string, .object | .string, .named _ | .string, .array _ | .string, .generic _ _
  | .string, .synthesized _ | .object, .primitive _ | .object, .string | .object, .named _
  | .object, .array _ | .object, .generic _ _ | .object, .synthesized _ | .named _, .primitive _
  | .named _, .string | .named _, .object | .named _, .array _ | .named _, .generic _ _
  | .named _, .synthesized _ | .array _, .primitive _ | .array _, .string | .array _, .object
  | .array _, .named _ | .array _, .generic _ _ | .array _, .synthesized _
  | .generic _ _, .primitive _ | .generic _ _, .string | .generic _ _, .object
  | .generic _ _, .named _ | .generic _ _, .array _ | .generic _ _, .synthesized _
  | .synthesized _, .primitive _ | .synthesized _, .string | .synthesized _, .object
  | .synthesized _, .named _ | .synthesized _, .array _ | .synthesized _, .generic _ _ =>
    isFalse (by intro h; cases h)

def decideEqAll : (ss ts : List TypeRef) → Decidable (ss = ts)
  | [], [] => isTrue rfl
  | [], _ :: _ => isFalse (by simp)
  | _ :: _, [] => isFalse (by simp)
  | s :: ss, t :: ts =>
    match decideEq s t with
    | isTrue h =>
      match decideEqAll ss ts with
      | isTrue g => isTrue (by rw [h, g])
      | isFalse g => isFalse (by simp [g])
    | isFalse h => isFalse (by simp [h])
end

instance : DecidableEq TypeRef := decideEq

mutual
def text : TypeRef → String
  | .primitive p => p.name
  | .string => "string"
  | .object => "object"
  | .named name => name.canonical
  | .synthesized name => name.canonical
  | .array element => element.text ++ "[]"
  | .generic definition args =>
    definition.canonical ++ "<" ++ ", ".intercalate (textsOfAll args) ++ ">"

def textsOfAll : List TypeRef → List String
  | [] => []
  | t :: rest => t.text :: textsOfAll rest
end

mutual
def isSelfContained : TypeRef → Bool
  | .named _ => false
  | .array element => element.isSelfContained
  | .generic _ args => allSelfContained args
  | _ => true

def allSelfContained : List TypeRef → Bool
  | [] => true
  | t :: rest => t.isSelfContained && allSelfContained rest
end

mutual
def synthesizedNames : TypeRef → List TypeName
  | .synthesized name => [name]
  | .array element => element.synthesizedNames
  | .generic _ args => synthesizedNamesOfAll args
  | _ => []

def synthesizedNamesOfAll : List TypeRef → List TypeName
  | [] => []
  | t :: rest => t.synthesizedNames ++ synthesizedNamesOfAll rest
end

end TypeRef

end FluentWrappers
