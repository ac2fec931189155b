import FluentWrappers.Binary.Wire

/-!
# Checksums (`SPEC_FULL.md`, 10.7, header)

The reflected cyclic redundancy check of ISO-HDLC, with polynomial `0xedb88320`, all bits set at the start
and inverted at the end; and the hash of FIPS 180-4 over a list of bytes, with padding to blocks of
sixty-four bytes, the message schedule, sixty-four rounds for each block, and thirty-two bytes of output.
-/

namespace FluentWrappers.Checksum

/-! ### CRC-32 -/

def crcShift (register : UInt32) : UInt32 :=
  if register &&& 1 = 1 then (register >>> 1) ^^^ 0xedb88320 else register >>> 1

def crcShifts : Nat → UInt32 → UInt32
  | 0, register => register
  | n + 1, register => crcShifts n (crcShift register)

def crcByte (register : UInt32) (byte : UInt8) : UInt32 :=
  crcShifts 8 (register ^^^ byte.toUInt32)

def crc32 (bytes : List UInt8) : UInt32 :=
  ~~~ bytes.foldl crcByte 0xffffffff

/-! ### SHA-256 -/

def sha256Constants : List UInt32 := [
  0x428a2f98, 0x71374491, 0xb5c0fbcf, 0xe9b5dba5, 0x3956c25b, 0x59f111f1, 0x923f82a4, 0xab1c5ed5,
  0xd807aa98, 0x12835b01, 0x243185be, 0x550c7dc3, 0x72be5d74, 0x80deb1fe, 0x9bdc06a7, 0xc19bf174,
  0xe49b69c1, 0xefbe4786, 0x0fc19dc6, 0x240ca1cc, 0x2de92c6f, 0x4a7484aa, 0x5cb0a9dc, 0x76f988da,
  0x983e5152, 0xa831c66d, 0xb00327c8, 0xbf597fc7, 0xc6e00bf3, 0xd5a79147, 0x06ca6351, 0x14292967,
  0x27b70a85, 0x2e1b2138, 0x4d2c6dfc, 0x53380d13, 0x650a7354, 0x766a0abb, 0x81c2c92e, 0x92722c85,
  0xa2bfe8a1, 0xa81a664b, 0xc24b8b70, 0xc76c51a3, 0xd192e819, 0xd6990624, 0xf40e3585, 0x106aa070,
  0x19a4c116, 0x1e376c08, 0x2748774c, 0x34b0bcb5, 0x391c0cb3, 0x4ed8aa4a, 0x5b9cca4f, 0x682e6ff3,
  0x748f82ee, 0x78a5636f, 0x84c87814, 0x8cc70208, 0x90befffa, 0xa4506ceb, 0xbef9a3f7, 0xc67178f2]

def rotateRight (word : UInt32) (places : UInt32) : UInt32 :=
  (word >>> places) ||| (word <<< (32 - places))

structure Sha256State where
  a : UInt32
  b : UInt32
  c : UInt32
  d : UInt32
  e : UInt32
  f : UInt32
  g : UInt32
  h : UInt32
  deriving DecidableEq

def Sha256State.start : Sha256State :=
  ⟨0x6a09e667, 0xbb67ae85, 0x3c6ef372, 0xa54ff53a, 0x510e527f, 0x9b05688c, 0x1f83d9ab, 0x5be0cd19⟩

def Sha256State.round (s : Sha256State) (constant word : UInt32) : Sha256State :=
  let sum1 := rotateRight s.e 6 ^^^ rotateRight s.e 11 ^^^ rotateRight s.e 25
  let choice := (s.e &&& s.f) ^^^ (~~~ s.e &&& s.g)
  let first := s.h + sum1 + choice + constant + word
  let sum0 := rotateRight s.a 2 ^^^ rotateRight s.a 13 ^^^ rotateRight s.a 22
  let majority := (s.a &&& s.b) ^^^ (s.a &&& s.c) ^^^ (s.b &&& s.c)
  ⟨first + (sum0 + majority), s.a, s.b, s.c, s.d + first, s.e, s.f, s.g⟩

def Sha256State.add (s t : Sha256State) : Sha256State :=
  ⟨s.a + t.a, s.b + t.b, s.c + t.c, s.d + t.d, s.e + t.e, s.f + t.f, s.g + t.g, s.h + t.h⟩

def bigEndianWord (word : UInt32) : List UInt8 :=
  (Binary.littleEndian 4 word.toNat).reverse

def Sha256State.bytes (s : Sha256State) : List UInt8 :=
  bigEndianWord s.a ++ bigEndianWord s.b ++ bigEndianWord s.c ++ bigEndianWord s.d ++
    bigEndianWord s.e ++ bigEndianWord s.f ++ bigEndianWord s.g ++ bigEndianWord s.h

/-- A message followed by a set bit, zeros and its length in bits, in whole blocks. -/
def sha256Padded (message : List UInt8) : List UInt8 :=
  let length := message.length
  let zeros := (119 - length % 64) % 64
  message ++ 0x80 :: List.replicate zeros 0 ++ (Binary.littleEndian 8 (8 * length)).reverse

/-- The big-endian words of a block; bytes that fill no word are dropped. -/
def bigEndianWords : List UInt8 → List UInt32
  | a :: b :: c :: d :: rest => UInt32.ofNat (Binary.ofLittleEndian [d, c, b, a]) :: bigEndianWords rest
  | _ => []

def nextScheduleWord (latestFirst : List UInt32) : UInt32 :=
  let word2 := latestFirst.getD 1 0
  let word7 := latestFirst.getD 6 0
  let word15 := latestFirst.getD 14 0
  let word16 := latestFirst.getD 15 0
  let sigma0 := rotateRight word15 7 ^^^ rotateRight word15 18 ^^^ (word15 >>> 3)
  let sigma1 := rotateRight word2 17 ^^^ rotateRight word2 19 ^^^ (word2 >>> 10)
  word16 + sigma0 + word7 + sigma1

def extendSchedule : Nat → List UInt32 → List UInt32
  | 0, latestFirst => latestFirst
  | n + 1, latestFirst => extendSchedule n (nextScheduleWord latestFirst :: latestFirst)

def Sha256State.block (state : Sha256State) (words : List UInt32) : Sha256State :=
  let schedule := (extendSchedule 48 words.reverse).reverse
  let rounds := (sha256Constants.zip schedule).foldl (fun s (k, w) => s.round k w) state
  state.add rounds

def sha256Blocks (state : Sha256State) (words : List UInt32) : Sha256State :=
  match words with
  | [] => state
  | w :: rest => sha256Blocks (state.block ((w :: rest).take 16)) (rest.drop 15)
termination_by words.length
decreasing_by
  simp only [List.length_drop, List.length_cons]
  omega

def sha256 (message : List UInt8) : List UInt8 :=
  (sha256Blocks .start (bigEndianWords (sha256Padded message))).bytes

@[simp] theorem length_bigEndianWord (word : UInt32) : (bigEndianWord word).length = 4 := by
  simp [bigEndianWord]

@[simp] theorem length_sha256 (message : List UInt8) : (sha256 message).length = 32 := by
  simp [sha256, Sha256State.bytes]

end FluentWrappers.Checksum
