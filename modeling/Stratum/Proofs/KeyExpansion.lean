import Mathlib.Data.List.Range
import Stratum.Crypto.HkdfBuffers
import Stratum.Crypto.Suite
import Stratum.Proofs.Codec

/-!
# Key expansion

The output of an expansion is the beginning of one sequence of blocks, `T(1) | T(2) | ...`, where each block
is a code of the block before it, the purpose, and its own number; in front of the first there is nothing
(`Hkdf.blockAt`, `Hkdf.firstBlocks`).

* `Hkdf.expand_eq_ok`: `Hkdf.expand` gives the first bytes of the sequence, for any number of blocks that
  suffices; so a shorter output is in front of a longer one;
* `Expansion.AfterRounds`: what the buffers hold after some rounds of the loop, which a round keeps
  (`Expansion.AfterRounds.round`), and from which the whole run follows
  (`Expansion.AfterRounds.run`). The number of a round is one more than the rounds before it, as
  long as a byte can hold it, and that is so up to the greatest output;
* **`Hkdf.expansion_is_by_blocks`**: both together, and the two keys of a handshake as two codes.
-/

namespace Stratum

/-! ### Copies into a buffer -/

/-- What a buffer begins with after a copy. -/
theorem Bytes.take_overwrite {buffer : Bytes} (bytes : Bytes) {place : Nat} (h : place ≤ buffer.length) :
    (buffer.overwrite place bytes).take (place + bytes.length) = buffer.take place ++ bytes := by
  have hplace : (buffer.take place ++ bytes).length = place + bytes.length := by
    rw [List.length_append, List.length_take_of_le h]
  rw [overwrite, ← hplace, List.take_left]

theorem Bytes.length_overwrite {buffer bytes : Bytes} {place : Nat} (h : place + bytes.length ≤ buffer.length) :
    (buffer.overwrite place bytes).length = buffer.length := by
  simp only [overwrite, List.length_append, List.length_take, List.length_drop]
  omega

namespace Hkdf

/-! ### The sequence of blocks -/

/-- The block with a given number. There is nothing in front of the first. -/
def blockAt (key : Digest) (info : Bytes) : Nat → Bytes
  | 0 => []
  | i + 1 => (hmac key.toBytes (blockAt key info i ++ info ++ [UInt8.ofNat (i + 1)])).toBytes

/-- The first `n` blocks, one after another. -/
def firstBlocks (key : Digest) (info : Bytes) (n : Nat) : Bytes :=
  (List.range' 1 n).flatMap (blockAt key info)

theorem length_digest (d : Digest) : d.toBytes.length = digestLength := d.length_eq

section

variable (key : Digest) (info : Bytes)

@[simp] theorem length_blockAt_succ (i : Nat) : (blockAt key info (i + 1)).length = digestLength :=
  length_digest _

theorem firstBlocks_succ (n : Nat) :
    firstBlocks key info (n + 1) = firstBlocks key info n ++ blockAt key info (n + 1) := by
  simp [firstBlocks, List.range'_concat, Nat.add_comm]

@[simp] theorem length_firstBlocks (n : Nat) : (firstBlocks key info n).length = digestLength * n := by
  induction n with
  | zero => rfl
  | succ n ih => rw [firstBlocks_succ, List.length_append, ih, length_blockAt_succ, Nat.mul_succ]

theorem firstBlocks_isPrefix {m n : Nat} (h : m ≤ n) : firstBlocks key info m <+: firstBlocks key info n := by
  induction h with
  | refl => exact List.prefix_refl _
  | step _ ih =>
    rw [Nat.succ_eq_add_one, firstBlocks_succ]
    exact ih.trans (List.prefix_append _ _)

/-- Bytes that are in the first blocks are the same in more of them. -/
theorem take_firstBlocks {m n length : Nat} (hm : length ≤ digestLength * m) (hn : length ≤ digestLength * n) :
    (firstBlocks key info m).take length = (firstBlocks key info n).take length := by
  have hmore : ∀ {m n}, m ≤ n → length ≤ digestLength * m →
      (firstBlocks key info m).take length = (firstBlocks key info n).take length := by
    intro m n h hm
    obtain ⟨rest, hrest⟩ := firstBlocks_isPrefix key info h
    rw [← hrest, List.take_append_of_le_length (by rwa [length_firstBlocks])]
  obtain h | h := Nat.le_total m n
  · exact hmore h hm
  · exact (hmore h hn).symm

/-- The recursion over the blocks goes along the sequence. -/
theorem blocks_eq (n i : Nat) :
    blocks key info n (i + 1) (blockAt key info i) = (List.range' (i + 1) n).flatMap (blockAt key info) := by
  induction n generalizing i with
  | zero => rfl
  | succ n ih =>
    rw [List.range'_succ, List.flatMap_cons, ← ih (i + 1)]
    rfl

theorem blocks_first (n : Nat) : blocks key info n 1 [] = firstBlocks key info n := blocks_eq key info n 0

end

/-- The number of blocks that an output takes. -/
theorem le_mul_blockCount (length : Nat) :
    length ≤ digestLength * ((length + digestLength - 1) / digestLength) := by
  show length ≤ 32 * ((length + 32 - 1) / 32)
  omega

/-- **An output is the first bytes of the blocks**, of as many as suffice or more. -/
theorem expand_eq_ok {key : Digest} {info : Bytes} {length n : Nat} (hmax : length ≤ maxLength)
    (hn : length ≤ digestLength * n) :
    expand key info length = .ok ((firstBlocks key info n).take length) := by
  rw [expand, if_pos hmax, blocks_first, take_firstBlocks key info (le_mul_blockCount length) hn]

/-! ### The loop over the buffers -/

namespace Expansion

variable {key : Digest} {info : Bytes} {length i : Nat} {s : Expansion}

/-- What the buffers hold after `i` rounds. -/
structure AfterRounds (key : Digest) (info : Bytes) (length i : Nat) (s : Expansion) : Prop where
  /-- The output begins with the blocks, as far as it goes. -/
  output : s.output = (firstBlocks key info i).take length ++ List.replicate (length - digestLength * i) 0
  /-- That many bytes are written. -/
  done : s.done = min (digestLength * i) length
  /-- The last block is what goes into the next text. -/
  code : s.code.take s.codeLength = blockAt key info i
  /-- Its length is known. -/
  codeLength : s.codeLength = (blockAt key info i).length
  /-- The text has room for a code, the purpose and a number. -/
  text : s.text.length = digestLength + info.length + 1
  /-- The number is that of the next round, as far as a byte holds it. -/
  number : s.number = UInt8.ofNat (i + 1)

theorem afterRounds_start (memory key : Digest) (info : Bytes) (length : Nat) :
    AfterRounds key info length 0 (start memory info length) where
  output := by simp [start, firstBlocks]
  done := by simp [start]
  code := by simp [start, blockAt]
  codeLength := rfl
  text := by simp [start]
  number := rfl

theorem length_blockAt_le (key : Digest) (info : Bytes) (i : Nat) : (blockAt key info i).length ≤ digestLength := by
  cases i with
  | zero => exact Nat.zero_le _
  | succ i => exact Nat.le_of_eq (length_blockAt_succ key info i)

/-- **The text of the next code**, whatever its buffer held. -/
theorem AfterRounds.nextText (h : AfterRounds key info length i s) :
    (s.nextText info).take (s.codeLength + info.length + 1) = blockAt key info i ++ info ++ [UInt8.ofNat (i + 1)] ∧
      (s.nextText info).length = digestLength + info.length + 1 := by
  have hblock := length_blockAt_le key info i
  have htext := h.text
  rw [Expansion.nextText, h.code, h.number, h.codeLength]
  -- The code first.
  have hfits : 0 + (blockAt key info i).length ≤ s.text.length := by omega
  have hcode := Bytes.take_overwrite (blockAt key info i) (Nat.zero_le s.text.length)
  have hcodeLength := Bytes.length_overwrite hfits
  rw [Nat.zero_add, List.take_zero, List.nil_append] at hcode
  generalize s.text.overwrite 0 (blockAt key info i) = coded at hcode hcodeLength
  -- Then the purpose, which is copied only if there is one.
  have hinfo : (if info = [] then coded else coded.overwrite (blockAt key info i).length info).take
        ((blockAt key info i).length + info.length) = blockAt key info i ++ info ∧
      (if info = [] then coded else coded.overwrite (blockAt key info i).length info).length = s.text.length := by
    split
    · rename_i hnil
      subst hnil
      exact ⟨by rw [List.append_nil]; exact hcode, hcodeLength⟩
    · rw [Bytes.take_overwrite _ (by omega), hcode, Bytes.length_overwrite (by omega)]
      exact ⟨rfl, hcodeLength⟩
  generalize (if info = [] then coded else coded.overwrite (blockAt key info i).length info) = purposed at hinfo
  -- Then the number.
  obtain ⟨hpurpose, hpurposeLength⟩ := hinfo
  have hroom : (blockAt key info i).length + info.length ≤ purposed.length := by omega
  have hnumber := Bytes.take_overwrite [UInt8.ofNat (i + 1)] hroom
  rw [List.length_singleton, hpurpose] at hnumber
  refine ⟨hnumber, ?_⟩
  rw [Bytes.length_overwrite (by rw [List.length_singleton]; omega), hpurposeLength, htext]

/-- **A round writes the next block**, as far as the output goes. -/
theorem AfterRounds.round (h : AfterRounds key info length i s) (hmissing : s.done < length) :
    AfterRounds key info length (i + 1) (s.round key info length) := by
  obtain ⟨htext, htextLength⟩ := h.nextText
  have hcode : (s.round key info length).code = blockAt key info (i + 1) := by
    show (hmac key.toBytes ((s.nextText info).take (s.codeLength + info.length + 1))).toBytes = _
    rw [htext]
    rfl
  have hfull := length_blockAt_succ key info i
  have hbefore : digestLength * i < length := by
    have hdone := h.done
    omega
  have hdone : s.done = digestLength * i := by rw [h.done, Nat.min_eq_left (Nat.le_of_lt hbefore)]
  have hsucc : digestLength * (i + 1) = digestLength * i + digestLength := Nat.mul_succ _ _
  -- What is copied of the code is what is missing of the output, or all of it.
  let count := if length - s.done < digestLength then length - s.done else digestLength
  have hcount : count = min (length - digestLength * i) digestLength := by
    show (if length - s.done < digestLength then length - s.done else digestLength) = _
    rw [hdone]
    split <;> omega
  refine ⟨?_, ?_, ?_, hfull.symm, htextLength, ?_⟩
  · have hblocks : (firstBlocks key info i).length = digestLength * i := length_firstBlocks key info i
    have hfirst : (firstBlocks key info i).take length = firstBlocks key info i :=
      List.take_of_length_le (by omega)
    have hcopied : (blockAt key info (i + 1)).take count =
        (blockAt key info (i + 1)).take (length - digestLength * i) := by
      rw [hcount, ← hfull, ← List.take_eq_take_min]
    have hcopiedLength : ((blockAt key info (i + 1)).take count).length = count := by
      rw [List.length_take, hfull, hcount]
      omega
    have hrest : length - digestLength * i - count = length - digestLength * (i + 1) := by omega
    calc (s.round key info length).output
        = s.output.overwrite s.done ((s.round key info length).code.take count) := rfl
      _ = firstBlocks key info i ++ (blockAt key info (i + 1)).take count
            ++ List.replicate (length - digestLength * (i + 1)) 0 := by
          rw [hcode, h.output, hdone, hfirst, Bytes.overwrite, hcopiedLength, ← hblocks, List.take_left,
            List.drop_length_add_append, List.drop_replicate, hblocks, hrest]
      _ = (firstBlocks key info (i + 1)).take length ++ List.replicate (length - digestLength * (i + 1)) 0 := by
          rw [hcopied, firstBlocks_succ, List.take_append, hfirst, hblocks]
  · show s.done + count = _
    rw [hdone, hcount]
    omega
  · rw [hcode]
    exact List.take_of_length_le (Nat.le_of_eq hfull)
  · show s.number + 1 = _
    rw [h.number]
    exact (UInt8.ofNat_add (i + 1) 1).symm

/-- **What a run gives** from there on: the numbers of the rounds that are left, and the output. -/
theorem AfterRounds.run (h : AfterRounds key info length i s) {n : Nat} (hi : i ≤ n)
    (hn : length ≤ digestLength * n) (hfew : digestLength * n < length + digestLength) :
    run key info length s =
      ((List.range' (i + 1) (n - i)).map UInt8.ofNat, (firstBlocks key info n).take length) := by
  have hdone := h.done
  induction hleft : n - i generalizing i s with
  | zero =>
    obtain rfl : i = n := by omega
    have hend : ¬ s.done < length := by omega
    have hfull : length - digestLength * i = 0 := by omega
    rw [Expansion.run, if_neg hend, h.output, hfull, List.replicate_zero, List.append_nil]
    rfl
  | succ left ih =>
    have hsucc : digestLength * (i + 1) ≤ digestLength * n := Nat.mul_le_mul_left _ (by omega)
    rw [Nat.mul_succ] at hsucc
    have hmissing : s.done < length := by omega
    have hround := h.round hmissing
    rw [Expansion.run, if_pos hmissing, ih hround (by omega) hround.done (by omega), h.number, List.range'_succ,
      List.map_cons]

end Expansion

/-! ### Key expansion -/

/-- **The loop gives the output**, and its rounds have the numbers from 1 on, up to the last that a byte holds. -/
theorem expandInBuffers_eq (memory key : Digest) (info : Bytes) {length : Nat} (h : length ≤ maxLength) :
    ∃ numbers output, expandInBuffers memory key info length = .ok (numbers, output) ∧
      expand key info length = .ok output ∧
      numbers.map UInt8.toNat = List.range' 1 ((length + digestLength - 1) / digestLength) := by
  let n := (length + digestLength - 1) / digestLength
  have hn : length ≤ digestLength * n := le_mul_blockCount length
  have hfew : digestLength * n < length + digestLength := by
    show 32 * ((length + 32 - 1) / 32) < length + 32
    omega
  have hrun := (Expansion.afterRounds_start memory key info length).run (Nat.zero_le n) hn hfew
  refine ⟨_, _, (if_pos h).trans (congrArg Except.ok hrun), expand_eq_ok h hn, ?_⟩
  -- 255 rounds are numbered without a carry.
  have hbyte : n ≤ 255 := by
    have hmax : length ≤ 255 * 32 := h
    show (length + 32 - 1) / 32 ≤ 255
    omega
  rw [List.map_map, Nat.zero_add, Nat.sub_zero]
  calc (List.range' 1 n).map (UInt8.toNat ∘ UInt8.ofNat)
      = (List.range' 1 n).map id := by
        refine List.map_congr_left fun k hk => ?_
        have hk' := List.mem_range'_1.1 hk
        exact UInt8.toNat_ofNat_of_lt' (show k < 256 by omega)
    _ = List.range' 1 n := List.map_id _

/-- A shorter output is in front of a longer one. -/
theorem expand_isPrefix (key : Digest) (info : Bytes) {m n : Nat} (h : m ≤ n) (hn : n ≤ maxLength) :
    ∃ short long, expand key info m = .ok short ∧ expand key info n = .ok long ∧ short.length = m ∧
      long.length = n ∧ short <+: long := by
  have hblocks := le_mul_blockCount n
  generalize (n + digestLength - 1) / digestLength = count at hblocks
  refine ⟨_, _, expand_eq_ok (Nat.le_trans h hn) (Nat.le_trans h hblocks), expand_eq_ok hn hblocks, ?_, ?_, ?_⟩
  · exact List.length_take_of_le (by rw [length_firstBlocks]; omega)
  · exact List.length_take_of_le (by rwa [length_firstBlocks])
  · exact List.take_prefix_take_left h

/-- The two blocks that the keys of a handshake are. -/
theorem firstBlocks_two (key : Digest) :
    firstBlocks key [] 2 =
      (hmac key.toBytes [1]).toBytes ++ (hmac key.toBytes ((hmac key.toBytes [1]).toBytes ++ [2])).toBytes := by
  have hsecond : blockAt key [] 2 = (hmac key.toBytes ((hmac key.toBytes [1]).toBytes ++ [2])).toBytes := by
    rw [blockAt, List.append_nil]
    rfl
  rw [firstBlocks_succ, firstBlocks_succ, hsecond]
  rfl

/-- The keys that a handshake derives are the first block and the second. -/
theorem deriveKeys_eq (chainingKey : Key) (material : Bytes) :
    Suite.deriveKeys chainingKey material =
      let key := hmac chainingKey.toBytes material
      let first := hmac key.toBytes [1]
      (first, hmac key.toBytes (first.toBytes ++ [2])) := by
  rw [Suite.deriveKeys, blocks_first, extract, firstBlocks_two]
  dsimp only
  generalize hmac chainingKey.toBytes material = key
  generalize hmac key.toBytes [1] = first
  generalize hmac key.toBytes (first.toBytes ++ [2]) = second
  have hsecond : (first.toBytes ++ second.toBytes).drop 32 = second.toBytes := List.drop_left' first.length_eq
  rw [hsecond, FixedBytes.padded_append, (FixedBytes.padded_eq_iff second.length_eq).2 rfl]

/-- An output of two blocks, cut in two, is these keys. -/
theorem twoKeys_eq (memory : Digest) (chainingKey : Key) (material : Bytes) :
    twoKeys memory chainingKey material = .ok (Suite.deriveKeys chainingKey material) := by
  have hmax : 2 * digestLength ≤ maxLength := by decide
  obtain ⟨numbers, output, hbuffers, hexpand, -⟩ :=
    expandInBuffers_eq memory (extract chainingKey.toBytes material) [] hmax
  have hall : (firstBlocks (extract chainingKey.toBytes material) [] 2).length ≤ 2 * digestLength :=
    Nat.le_of_eq (length_firstBlocks _ _ 2)
  rw [expand_eq_ok hmax (n := 2) (by decide), List.take_of_length_le hall] at hexpand
  obtain rfl := Except.ok.inj hexpand
  rw [twoKeys, Attempt.bind_of_ok hbuffers, deriveKeys_eq, extract, firstBlocks_two]
  dsimp only
  generalize hmac chainingKey.toBytes material = key
  generalize hmac key.toBytes [1] = first
  generalize hmac key.toBytes (first.toBytes ++ [2]) = second
  have hfirst : (first.toBytes ++ second.toBytes).take digestLength = first.toBytes :=
    List.take_left' (length_digest first)
  have hsecond : ((first.toBytes ++ second.toBytes).drop digestLength).take digestLength = second.toBytes := by
    rw [List.drop_left' (length_digest first), List.take_of_length_le (Nat.le_of_eq (length_digest second))]
  rw [hfirst, hsecond, (FixedBytes.padded_eq_iff first.length_eq).2 rfl,
    (FixedBytes.padded_eq_iff second.length_eq).2 rfl]
  rfl

/-- **An expansion gives the first bytes of its blocks.** Each block is the code of the block before it, the
purpose, and its number in one byte. Up to 8160 bytes, an output is the first bytes of as many blocks as
suffice, or of more; the loop over buffers gives it too, whatever memory it starts with, and its rounds are
numbered from 1 to the number of blocks, each number once and none of them carried out of its byte. A shorter
output is in front of a longer one, and one of more than 8160 bytes is refused as an argument. So the two
keys of a handshake are the code of the byte 1, and the code of that key and the byte 2, under the code of
the secret material under the chaining key. -/
theorem expansion_is_by_blocks :
    (∀ key info length n, length ≤ 8160 → length ≤ 32 * n →
      expand key info length = .ok ((firstBlocks key info n).take length)) ∧
    (∀ memory key info length, length ≤ 8160 → ∃ numbers output,
      expandInBuffers memory key info length = .ok (numbers, output) ∧
        expand key info length = .ok output ∧
        numbers.map UInt8.toNat = List.range' 1 ((length + 31) / 32)) ∧
    (∀ key info m n, m ≤ n → n ≤ 8160 → ∃ short long,
      expand key info m = .ok short ∧ expand key info n = .ok long ∧ short.length = m ∧ long.length = n ∧
        short <+: long) ∧
    (∀ memory key info length, 8160 < length →
      expand key info length = .error (.key .derivationLength) ∧
        expandInBuffers memory key info length = .error (.key .derivationLength) ∧
        (Fault.key .derivationLength).kind = .invalidArgument) ∧
    (∀ memory chainingKey material,
      let key := hmac chainingKey.toBytes material
      let first := hmac key.toBytes [1]
      let second := hmac key.toBytes (first.toBytes ++ [2])
      twoKeys memory chainingKey material = .ok (first, second) ∧
        Suite.standard.derive chainingKey material = (first, second)) := by
  refine ⟨fun key info length n hmax hn => expand_eq_ok hmax hn,
    fun memory key info length hmax => expandInBuffers_eq memory key info hmax,
    fun key info m n h hn => expand_isPrefix key info h hn, fun memory key info length hlong => ?_,
    fun memory chainingKey material => ?_⟩
  · have hno : ¬ length ≤ maxLength := Nat.not_le.2 hlong
    exact ⟨if_neg hno, if_neg hno, rfl⟩
  · have hkeys := deriveKeys_eq chainingKey material
    exact ⟨(twoKeys_eq memory chainingKey material).trans (congrArg Except.ok hkeys), hkeys⟩

/-- The greatest output has 255 blocks, and the last round has the last number of a byte. -/
theorem expansion_is_by_blocks_to_the_end : ∃ numbers output,
    expandInBuffers (FixedBytes.replicate 32 7) (FixedBytes.replicate 32 1) [0x69] 8160 = .ok (numbers, output) ∧
      output = (firstBlocks (FixedBytes.replicate 32 1) [0x69] 255).take 8160 ∧
      numbers.map UInt8.toNat = List.range' 1 255 := by
  obtain ⟨hblocks, hloop, -⟩ := expansion_is_by_blocks
  obtain ⟨numbers, output, hbuffers, hexpand, hnumbers⟩ :=
    hloop (FixedBytes.replicate 32 7) (FixedBytes.replicate 32 1) [0x69] 8160 (Nat.le_refl _)
  rw [hblocks _ _ 8160 255 (Nat.le_refl _) (Nat.le_refl _)] at hexpand
  exact ⟨numbers, output, hbuffers, (Except.ok.inj hexpand).symm, hnumbers⟩

end Hkdf

end Stratum
