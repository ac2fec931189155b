/-!
# Primitive types (`SPEC_FULL.md`, 10.5, `PrimitiveType`)

The types that the base runtime provides, each with its tag byte and its name.
-/

namespace FluentWrappers

inductive Primitive where
  | bool
  | char
  | i8
  | i16
  | i32
  | i64
  | u8
  | u16
  | u32
  | u64
  | f32
  | f64
  | decimal
  | dateTime
  | timeSpan
  | guid
  deriving DecidableEq, Repr, Inhabited

namespace Primitive

def all : List Primitive :=
  [bool, char, i8, i16, i32, i64, u8, u16, u32, u64, f32, f64, decimal, dateTime, timeSpan, guid]

def byte (p : Primitive) : UInt8 := UInt8.ofNat p.ctorIdx

def ofByte? (b : UInt8) : Option Primitive := all[b.toNat]?

def name : Primitive → String
  | bool => "bool"
  | char => "char"
  | i8 => "i8"
  | i16 => "i16"
  | i32 => "i32"
  | i64 => "i64"
  | u8 => "u8"
  | u16 => "u16"
  | u32 => "u32"
  | u64 => "u64"
  | f32 => "f32"
  | f64 => "f64"
  | decimal => "decimal"
  | dateTime => "datetime"
  | timeSpan => "timespan"
  | guid => "guid"

def ofName? (name : String) : Option Primitive := all.find? (·.name == name)

def isIntegral : Primitive → Bool
  | i8 | i16 | i32 | i64 | u8 | u16 | u32 | u64 => true
  | _ => false

def isFloat : Primitive → Bool
  | f32 | f64 | decimal => true
  | _ => false

@[simp] theorem ofByte?_byte (p : Primitive) : ofByte? p.byte = some p := by
  cases p <;> rfl

theorem byte_of_getElem? {n : Nat} {p : Primitive} (h : all[n]? = some p) :
    p.byte = UInt8.ofNat n := by
  match n, h with
  | 0, h | 1, h | 2, h | 3, h | 4, h | 5, h | 6, h | 7, h | 8, h | 9, h | 10, h | 11, h | 12, h
  | 13, h | 14, h | 15, h => exact Option.some.inj h ▸ rfl
  | n + 16, h => simp [all] at h

theorem byte_of_ofByte? {b : UInt8} {p : Primitive} (h : ofByte? b = some p) : p.byte = b := by
  simpa using byte_of_getElem? h

@[simp] theorem ofName?_name (p : Primitive) : ofName? p.name = some p := by
  cases p <;> decide +kernel

end Primitive

end FluentWrappers
