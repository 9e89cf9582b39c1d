import AdminPlatform.Lib.Digits
import Mathlib.Data.String.Basic

/-! # SHA-256

The hash function of FIPS 180-4, over a list of bytes, and `hexdigest`, the hash of a
string's UTF-8 encoding as 64 lower-case hexadecimal digits. -/

namespace AdminPlatform.Lib.Sha256

abbrev Word := BitVec 32

/-- The eight working variables. -/
@[ext]
structure Registers where
  a : Word
  b : Word
  c : Word
  d : Word
  e : Word
  f : Word
  g : Word
  h : Word
  deriving DecidableEq

def initial : Registers :=
  { a := 0x6a09e667, b := 0xbb67ae85, c := 0x3c6ef372, d := 0xa54ff53a,
    e := 0x510e527f, f := 0x9b05688c, g := 0x1f83d9ab, h := 0x5be0cd19 }

/-- The round constants. -/
def constants : List Word :=
  [0x428a2f98, 0x71374491, 0xb5c0fbcf, 0xe9b5dba5, 0x3956c25b, 0x59f111f1, 0x923f82a4,
    0xab1c5ed5, 0xd807aa98, 0x12835b01, 0x243185be, 0x550c7dc3, 0x72be5d74, 0x80deb1fe,
    0x9bdc06a7, 0xc19bf174, 0xe49b69c1, 0xefbe4786, 0x0fc19dc6, 0x240ca1cc, 0x2de92c6f,
    0x4a7484aa, 0x5cb0a9dc, 0x76f988da, 0x983e5152, 0xa831c66d, 0xb00327c8, 0xbf597fc7,
    0xc6e00bf3, 0xd5a79147, 0x06ca6351, 0x14292967, 0x27b70a85, 0x2e1b2138, 0x4d2c6dfc,
    0x53380d13, 0x650a7354, 0x766a0abb, 0x81c2c92e, 0x92722c85, 0xa2bfe8a1, 0xa81a664b,
    0xc24b8b70, 0xc76c51a3, 0xd192e819, 0xd6990624, 0xf40e3585, 0x106aa070, 0x19a4c116,
    0x1e376c08, 0x2748774c, 0x34b0bcb5, 0x391c0cb3, 0x4ed8aa4a, 0x5b9cca4f, 0x682e6ff3,
    0x748f82ee, 0x78a5636f, 0x84c87814, 0x8cc70208, 0x90befffa, 0xa4506ceb, 0xbef9a3f7,
    0xc67178f2]

/-! ## One block -/

/-- One round, with the schedule word `w` and the constant `k`. -/
def round (r : Registers) (k w : Word) : Registers :=
  let s1 := r.e.rotateRight 6 ^^^ r.e.rotateRight 11 ^^^ r.e.rotateRight 25
  let ch := (r.e &&& r.f) ^^^ (~~~r.e &&& r.g)
  let t1 := r.h + s1 + ch + k + w
  let s0 := r.a.rotateRight 2 ^^^ r.a.rotateRight 13 ^^^ r.a.rotateRight 22
  let maj := (r.a &&& r.b) ^^^ (r.a &&& r.c) ^^^ (r.b &&& r.c)
  { a := t1 + (s0 + maj), b := r.a, c := r.b, d := r.c, e := r.d + t1, f := r.e, g := r.f,
    h := r.g }

/-- The schedule word that follows sixteen given ones. -/
def schedule (window : List Word) : Word :=
  let w1 := window.getD 1 0
  let w14 := window.getD 14 0
  let s0 := w1.rotateRight 7 ^^^ w1.rotateRight 18 ^^^ w1 >>> 3
  let s1 := w14.rotateRight 17 ^^^ w14.rotateRight 19 ^^^ w14 >>> 10
  window.getD 0 0 + s0 + window.getD 9 0 + s1

/-- The rounds of a block: `window` holds the next sixteen schedule words. -/
def rounds : List Word → List Word → Registers → Registers
  | [], _, r => r
  | k :: ks, window, r =>
      rounds ks (window.tail ++ [schedule window]) (round r k (window.getD 0 0))

def compress (r : Registers) (block : List Word) : Registers :=
  let o := rounds constants block r
  { a := r.a + o.a, b := r.b + o.b, c := r.c + o.c, d := r.d + o.d, e := r.e + o.e,
    f := r.f + o.f, g := r.g + o.g, h := r.h + o.h }

/-! ## The message -/

/-- The number a list of bytes spells, most significant first. -/
def bigEndian (bs : List UInt8) : Nat := bs.foldl (fun n b => n * 256 + b.toNat) 0

/-- The eight bytes of a message's length in bits. -/
def lengthBytes (n : Nat) : List UInt8 :=
  (List.range 8).map (fun i => UInt8.ofNat (n * 8 / 256 ^ (7 - i)))

/-- The padded message: a one bit, zeros up to eight bytes short of a block, the length. -/
def pad (msg : List UInt8) : List UInt8 :=
  msg ++ 0x80 :: (List.replicate ((119 - msg.length % 64) % 64) 0 ++ lengthBytes msg.length)

/-- The first `n` groups of four bytes, as words. -/
def words : Nat → List UInt8 → List Word
  | 0, _ => []
  | n + 1, bs => BitVec.ofNat 32 (bigEndian (bs.take 4)) :: words n (bs.drop 4)

/-- Absorb the first `n` blocks of 64 bytes. -/
def blocks : Nat → List UInt8 → Registers → Registers
  | 0, _, r => r
  | n + 1, bs, r => blocks n (bs.drop 64) (compress r (words 16 (bs.take 64)))

def sha256 (msg : List UInt8) : Registers :=
  let padded := pad msg
  blocks (padded.length / 64) padded initial

/-! ## The digest of a string -/

/-- The bytes of a string's UTF-8 encoding. -/
def encode (s : String) : List UInt8 := s.toByteArray.data.toList

theorem encode_injective : Function.Injective encode := by
  intro s t h
  have hdata : s.toByteArray.data = t.toByteArray.data := Array.toList_inj.mp h
  exact String.toByteArray_inj.mp (ByteArray.ext hdata)

def hexWord (w : Word) : List Char := fixedDigits 16 8 w.toNat

def hexChars (r : Registers) : List Char :=
  hexWord r.a ++ hexWord r.b ++ hexWord r.c ++ hexWord r.d ++ hexWord r.e ++ hexWord r.f ++
    hexWord r.g ++ hexWord r.h

/-- `sha256(s.encode()).hexdigest()`. -/
def hexdigest (s : String) : String := String.ofList (hexChars (sha256 (encode s)))

@[simp] theorem toList_hexdigest (s : String) :
    (hexdigest s).toList = hexChars (sha256 (encode s)) := by
  simp [hexdigest]

theorem length_hexChars (r : Registers) : (hexChars r).length = 64 := by
  simp [hexChars, hexWord]

/-- A digest holds hexadecimal digits only. -/
theorem mem_hexChars {r : Registers} {c : Char} (h : c ∈ hexChars r) :
    ∃ d < 16, c = Nat.digitChar d := by
  simp only [hexChars, hexWord, List.mem_append] at h
  rcases h with ((((((h | h) | h) | h) | h) | h) | h) | h <;>
    exact mem_fixedDigits (by norm_num) h

theorem hexWord_inj {v w : Word} (h : hexWord v = hexWord w) : v = w := by
  have hlt : ∀ u : Word, u.toNat < 16 ^ 8 := fun u => u.isLt
  exact BitVec.eq_of_toNat_eq
    (fixedDigits_inj (by norm_num) (by norm_num) (hlt v) (hlt w) h)

theorem hexChars_inj {r s : Registers} (h : hexChars r = hexChars s) : r = s := by
  have cut : ∀ {v w : Word} {xs ys : List Char}, xs ++ hexWord v = ys ++ hexWord w →
      xs = ys ∧ v = w := by
    intro v w xs ys heq
    obtain ⟨hinit, hlast⟩ := List.append_inj' heq (by simp [hexWord])
    exact ⟨hinit, hexWord_inj hlast⟩
  obtain ⟨h, hi⟩ := cut h
  obtain ⟨h, hg⟩ := cut h
  obtain ⟨h, hf⟩ := cut h
  obtain ⟨h, he⟩ := cut h
  obtain ⟨h, hd⟩ := cut h
  obtain ⟨h, hc⟩ := cut h
  obtain ⟨ha, hb⟩ := cut h
  exact Registers.ext (hexWord_inj ha) hb hc hd he hf hg hi

/-- Equal hexadecimal digests are equal hashes. -/
theorem hexdigest_eq {s t : String} (h : hexdigest s = hexdigest t) :
    sha256 (encode s) = sha256 (encode t) :=
  hexChars_inj (String.ofList_injective h)

example : hexdigest "abc" =
    "ba7816bf8f01cfea414140de5dae2223b00361a396177a9cb410ff61f20015ad" := by
  decide +kernel

end AdminPlatform.Lib.Sha256
