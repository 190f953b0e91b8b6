import Mathlib.Data.List.Basic
import Mathlib.Data.Nat.Bitwise

/-!
# Keccak-256

The sponge over a permutation of twenty-five 64-bit lanes, with the padding that
Ethereum kept.  The state is one number, lane `x + 5 * y` in the bits from
`64 * (x + 5 * y)` on, so that most of a round is done to all lanes at once and
a block is absorbed as the number its bytes spell, lowest first.
-/

namespace AgentWorth.Lib.Keccak

/-! ## The permutation -/

/-- `k n`, with `n` evaluated before. -/
def force {α : Type} (n : Nat) (k : Nat → α) : α :=
  match n with
  | 0 => k 0
  | m + 1 => k (m + 1)

/-- One in every plane of five lanes. -/
def planes : Nat := (2 ^ 1600 - 1) / (2 ^ 320 - 1)

/-- One in every lane of a plane. -/
def lanes : Nat := (2 ^ 320 - 1) / (2 ^ 64 - 1)

def plane (s y : Nat) : Nat := (s >>> (320 * y)) % 2 ^ 320

def lane (s i : Nat) : Nat := (s >>> (64 * i)) % 2 ^ 64

def rotl (x n : Nat) : Nat := ((x <<< n) ||| (x >>> (64 - n))) % 2 ^ 64

/-- Every lane with the parity of the columns beside it. -/
def theta (s : Nat) : Nat :=
  force (plane s 0 ^^^ plane s 1 ^^^ plane s 2 ^^^ plane s 3 ^^^ plane s 4) fun c =>
    force (((c <<< 64) ||| (c >>> 256)) % 2 ^ 320) fun before =>
      force (((c >>> 64) ||| (c <<< 256)) % 2 ^ 320) fun after =>
        force (((after <<< 1) &&& (2 ^ 320 - 1 - lanes)) ||| ((after >>> 63) &&& lanes))
          fun rotated => s ^^^ ((before ^^^ rotated) * planes)

/-- How far a lane is rotated. -/
def offsets : List Nat :=
  [0, 1, 62, 28, 27, 36, 44, 6, 55, 20, 3, 10, 43, 25, 39, 41, 45, 15, 21, 8, 18, 2, 61, 56, 14]

/-- The lane that comes to stand at each place. -/
def sources : List Nat :=
  [0, 6, 12, 18, 24, 3, 9, 10, 16, 22, 1, 7, 13, 19, 20, 4, 5, 11, 17, 23, 2, 8, 14, 15, 21]

/-- Lanes rotated and moved, from the last place down. -/
def rhoPi (s : Nat) : List Nat → Nat → Nat
  | [], moved => moved
  | source :: rest, moved =>
      force (rotl (lane s source) (offsets.getD source 0)) fun x =>
        force ((moved <<< 64) ||| x) fun moved => rhoPi s rest moved

/-- Every lane with the two after it in its plane. -/
def chi (s : Nat) : Nat :=
  force (((s >>> 64) &&& ((2 ^ 256 - 1) * planes)) |||
      ((s <<< 256) &&& ((2 ^ 320 - 2 ^ 256) * planes))) fun next =>
    force (((s >>> 128) &&& ((2 ^ 192 - 1) * planes)) |||
        ((s <<< 192) &&& ((2 ^ 320 - 2 ^ 192) * planes))) fun second =>
      s ^^^ ((next ^^^ (2 ^ 1600 - 1)) &&& second)

def roundConstants : List Nat :=
  [0x0000000000000001, 0x0000000000008082, 0x800000000000808A, 0x8000000080008000,
    0x000000000000808B, 0x0000000080000001, 0x8000000080008081, 0x8000000000008009,
    0x000000000000008A, 0x0000000000000088, 0x0000000080008009, 0x000000008000000A,
    0x000000008000808B, 0x800000000000008B, 0x8000000000008089, 0x8000000000008003,
    0x8000000000008002, 0x8000000000000080, 0x000000000000800A, 0x800000008000000A,
    0x8000000080008081, 0x8000000000008080, 0x0000000080000001, 0x8000000080008008]

def permute : List Nat → Nat → Nat
  | [], s => s
  | c :: cs, s =>
      force (theta s) fun s => force (rhoPi s sources.reverse 0) fun s =>
        force (chi s ^^^ c) fun s => permute cs s

/-! ## The sponge -/

/-- The bytes of a block. -/
def rate : Nat := 136

def littleEndian (bytes : List UInt8) : Nat := bytes.foldr (fun b v => v * 256 + b.toNat) 0

/-- One bit, then zeros, then one bit at the end of the block. -/
def pad (bytes : List UInt8) : List UInt8 :=
  let missing := rate - bytes.length % rate
  if missing = 1 then bytes ++ [0x81]
  else bytes ++ 0x01 :: (List.replicate (missing - 2) 0 ++ [0x80])

def absorb : Nat → Nat → List UInt8 → Nat
  | 0, s, _ => s
  | blocks + 1, s, bytes =>
      force (s ^^^ littleEndian (bytes.take rate)) fun s =>
        force (permute roundConstants s) fun s => absorb blocks s (bytes.drop rate)

def keccak256 (bytes : List UInt8) : List UInt8 :=
  force (absorb (bytes.length / rate + 1) 0 (pad bytes)) fun s =>
    (List.range 32).map fun i => UInt8.ofNat ((s >>> (8 * i)) % 256)

theorem length_keccak256 (bytes : List UInt8) : (keccak256 bytes).length = 32 := by
  unfold keccak256 force
  split <;> simp

/-- The digest of nothing. -/
example : keccak256 [] =
    [0xc5, 0xd2, 0x46, 0x01, 0x86, 0xf7, 0x23, 0x3c, 0x92, 0x7e, 0x7d, 0xb2, 0xdc, 0xc7, 0x03,
      0xc0, 0xe5, 0x00, 0xb6, 0x53, 0xca, 0x82, 0x27, 0x3b, 0x7b, 0xfa, 0xd8, 0x04, 0x5d, 0x85,
      0xa4, 0x70] := by
  decide +kernel

end AgentWorth.Lib.Keccak
