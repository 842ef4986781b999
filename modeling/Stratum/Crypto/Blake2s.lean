import Stratum.Crypto.Block

/-!
# BLAKE2s

The hash function of RFC 7693 with digests of 32 bytes and without a key.
-/

namespace Stratum.Blake2s

/-- The number of bytes that one compression takes. -/
def blockLength : Nat := 64

/-- The initial chaining words. -/
def initial : Block UInt32 8 :=
  #v[0x6a09e667, 0xbb67ae85, 0x3c6ef372, 0xa54ff53a, 0x510e527f, 0x9b05688c, 0x1f83d9ab, 0x5be0cd19]

/-- The order in which each of the ten rounds takes the words of a block. -/
def schedule : List (Block Nat 16) :=
  [#v[0, 1, 2, 3, 4, 5, 6, 7, 8, 9, 10, 11, 12, 13, 14, 15],
   #v[14, 10, 4, 8, 9, 15, 13, 6, 1, 12, 0, 2, 11, 7, 5, 3],
   #v[11, 8, 12, 0, 5, 2, 15, 13, 10, 14, 3, 6, 7, 1, 9, 4],
   #v[7, 9, 3, 1, 13, 12, 11, 14, 2, 6, 5, 10, 4, 0, 15, 8],
   #v[9, 0, 5, 7, 2, 4, 10, 15, 14, 1, 11, 12, 6, 8, 3, 13],
   #v[2, 12, 6, 10, 0, 11, 8, 3, 4, 13, 7, 5, 15, 14, 1, 9],
   #v[12, 5, 1, 15, 14, 13, 4, 10, 0, 7, 6, 3, 9, 2, 8, 11],
   #v[13, 11, 7, 14, 12, 1, 3, 9, 5, 0, 15, 4, 8, 6, 2, 10],
   #v[6, 15, 14, 9, 11, 3, 0, 8, 12, 2, 13, 7, 1, 4, 10, 5],
   #v[10, 2, 8, 4, 7, 6, 1, 5, 15, 11, 9, 14, 3, 12, 13, 0]]

/-- Rotates a word to the right. -/
def rotateRight (x n : UInt32) : UInt32 := (x >>> n) ||| (x <<< (32 - n))

/-- Mixes four working words with two words of the block. -/
def mix (v : Block UInt32 16) (i j k l : Nat) (x y : UInt32) : Block UInt32 16 :=
  let a := v.get i + v.get j + x
  let d := rotateRight (v.get l ^^^ a) 16
  let c := v.get k + d
  let b := rotateRight (v.get j ^^^ c) 12
  let a := a + b + y
  let d := rotateRight (d ^^^ a) 8
  let c := c + d
  let b := rotateRight (b ^^^ c) 7
  (((v.put i a).put j b).put k c).put l d

/-- One round: the columns, then the diagonals. -/
def round (m v : Block UInt32 16) (s : Block Nat 16) : Block UInt32 16 :=
  let v := mix v 0 4 8 12 (m.get (s.get 0)) (m.get (s.get 1))
  let v := mix v 1 5 9 13 (m.get (s.get 2)) (m.get (s.get 3))
  let v := mix v 2 6 10 14 (m.get (s.get 4)) (m.get (s.get 5))
  let v := mix v 3 7 11 15 (m.get (s.get 6)) (m.get (s.get 7))
  let v := mix v 0 5 10 15 (m.get (s.get 8)) (m.get (s.get 9))
  let v := mix v 1 6 11 12 (m.get (s.get 10)) (m.get (s.get 11))
  let v := mix v 2 7 8 13 (m.get (s.get 12)) (m.get (s.get 13))
  mix v 3 4 9 14 (m.get (s.get 14)) (m.get (s.get 15))

/-- Takes a block into the chaining words. `count` is the number of bytes hashed so far, this block's
included, and `last` marks the final block. -/
def compress (h : Block UInt32 8) (block : Bytes) (count : Nat) (last : Bool) : Block UInt32 8 :=
  let m := Block.ofBytes 16 block
  let v : Block UInt32 16 := h ++ initial
  let v := v.put 12 (v.get 12 ^^^ UInt32.ofNat count)
  let v := v.put 13 (v.get 13 ^^^ UInt32.ofNat (count / Nat.pow 2 32))
  let v := if last then v.put 14 (v.get 14 ^^^ 0xFFFFFFFF) else v
  let w := schedule.foldl (round m) v
  Vector.ofFn fun i => h.get i ^^^ w.get i ^^^ w.get (i + 8)

/-- Takes the blocks of a text. A short block counts as filled up with zeros, and the empty text has one
empty block. -/
def absorb (h : Block UInt32 8) (count : Nat) : List Bytes → Block UInt32 8
  | [] => compress h [] count true
  | [b] => compress h b (count + b.length) true
  | b :: bs => absorb (compress h b (count + blockLength) false) (count + blockLength) bs

/-- The digest of a text. -/
def hash (text : Bytes) : Digest :=
  let h := initial.put 0 (initial.get 0 ^^^ 0x01010020)
  let h := absorb h 0 (Bytes.chunks blockLength text)
  FixedBytes.padded 32 h.toBytes

end Stratum.Blake2s
