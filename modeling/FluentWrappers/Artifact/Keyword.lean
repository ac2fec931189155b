/-!
# Kinds and visibilities (`SPEC_FULL.md`, 10.5)

The kind of a type and the visibility of a type or member, each with its tag and its keyword.
-/

namespace FluentWrappers

inductive TypeKind where
  | interface
  | classType
  | struct
  | enumeration
  deriving DecidableEq, Repr, Inhabited

namespace TypeKind

def all : List TypeKind := [.interface, .classType, .struct, .enumeration]

def byte : TypeKind → UInt8
  | .interface => 0
  | .classType => 1
  | .struct => 2
  | .enumeration => 3

def ofByte? (b : UInt8) : Option TypeKind := all.find? (·.byte == b)

def keyword : TypeKind → String
  | .interface => "interface"
  | .classType => "class"
  | .struct => "struct"
  | .enumeration => "enum"

def ofKeyword? (word : String) : Option TypeKind := all.find? (·.keyword == word)

@[simp] theorem ofByte?_byte (k : TypeKind) : ofByte? k.byte = some k := by
  cases k <;> rfl

theorem byte_of_ofByte? {b : UInt8} {k : TypeKind} (h : ofByte? b = some k) : k.byte = b := by
  simpa using List.find?_some h

end TypeKind

inductive Visibility where
  | publicAccess
  | internalAccess
  | privateAccess
  deriving DecidableEq, Repr, Inhabited

namespace Visibility

def all : List Visibility := [.publicAccess, .internalAccess, .privateAccess]

def byte : Visibility → UInt8
  | .publicAccess => 0
  | .internalAccess => 1
  | .privateAccess => 2

def ofByte? (b : UInt8) : Option Visibility := all.find? (·.byte == b)

def keyword : Visibility → String
  | .publicAccess => "public"
  | .internalAccess => "internal"
  | .privateAccess => "private"

def ofKeyword? (word : String) : Option Visibility := all.find? (·.keyword == word)

@[simp] theorem ofByte?_byte (v : Visibility) : ofByte? v.byte = some v := by
  cases v <;> rfl

theorem byte_of_ofByte? {b : UInt8} {v : Visibility} (h : ofByte? b = some v) : v.byte = b := by
  simpa using List.find?_some h

end Visibility

end FluentWrappers
