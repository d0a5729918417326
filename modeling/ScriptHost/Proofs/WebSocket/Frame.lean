import ScriptHost.WebSocket.Frame
import ScriptHost.Proofs.Stream.Reading
import Mathlib.Data.List.Basic
import Mathlib.Algebra.Group.Nat.Defs

/-!
# Frames on a stream

`Frame.reader` is the reading of one frame as a `Reader`, so that it can be fed with bytes, and
`readFrame_eq` says that it is what runs.  On it rest the two facts by which frames are known:

* `Frame.feed_writeFrame` — a frame that is written is read again, masked or not, and what stands
  behind it is left.
* `Frame.announced?` — the length that the beginning of a frame announces, as soon as enough of it
  is there.  Whatever bytes follow, a frame that is read from them has that length
  (`Frame.announced?_of_feed`).
-/

set_option autoImplicit false

namespace ScriptHost

/-! ## Numbers as bytes -/

namespace Sha1

theorem ofBigEndian_concat (bytes : Bytes) (b : UInt8) :
    ofBigEndian (bytes ++ [b]) = ofBigEndian bytes * 256 + b.toNat := by
  rw [ofBigEndian, List.foldl_append]
  rfl

theorem bigEndian_succ (count n : Nat) :
    bigEndian (count + 1) n = bigEndian count (n >>> 8) ++ [n.toUInt8] := by
  rw [bigEndian, List.range_succ, List.map_append, bigEndian]
  congr 1
  · refine List.map_congr_left fun i hi => ?_
    have hlt : i < count := List.mem_range.1 hi
    rw [show 8 * (count + 1 - 1 - i) = 8 + 8 * (count - 1 - i) by omega, Nat.shiftRight_add]
  · simp

@[simp] theorem length_bigEndian (count n : Nat) : (bigEndian count n).length = count := by
  rw [bigEndian, List.length_map, List.length_range]

theorem ofBigEndian_bigEndian (count n : Nat) :
    ofBigEndian (bigEndian count n) = n % 256 ^ count := by
  induction count generalizing n with
  | zero => simp [bigEndian, ofBigEndian, Nat.mod_one]
  | succ count ih =>
    have hshift : n >>> 8 = n / 256 := Nat.shiftRight_eq_div_pow n 8
    rw [bigEndian_succ, ofBigEndian_concat, ih, hshift, Nat.pow_succ', Nat.mod_mul]
    show _ + n % 256 = _
    omega

theorem ofBigEndian_bigEndian_of_lt {count n : Nat} (h : n < 256 ^ count) :
    ofBigEndian (bigEndian count n) = n := by
  rw [ofBigEndian_bigEndian, Nat.mod_eq_of_lt h]

end Sha1

namespace WebSocket

/-! ## Masks -/

@[simp] theorem length_applyMask (m : Mask) (bytes : Bytes) :
    (applyMask m bytes).length = bytes.length := by
  rw [applyMask, List.length_mapIdx]

/-- Masking twice with the same mask undoes it. -/
theorem applyMask_applyMask (m : Mask) (bytes : Bytes) :
    applyMask m (applyMask m bytes) = bytes := by
  refine List.ext_getElem (by simp) fun i h₁ h₂ => ?_
  simp only [applyMask, List.getElem_mapIdx, UInt8.xor_assoc, UInt8.xor_self, UInt8.xor_zero]

/-! ## The reader of frames -/

/-- A number of so many bytes. -/
def numberReader (size : Nat) : Reader Nat :=
  .need size fun bytes => .done (.ok (Sha1.ofBigEndian bytes))

/-- The length of a payload, given what the second byte says of it. -/
def lengthReader (n : Nat) : Reader Nat :=
  if n = 126 then numberReader 2 else if n = 127 then numberReader 8 else .done (.ok n)

/-- Reads a mask, if there is one. -/
def maskReader (masked : Bool) : Reader (Option Mask) :=
  if masked then .need 4 fun bytes =>
    .done (.ok (match bytes with | [a, b, c, e] => some (a, b, c, e) | _ => none))
  else .done (.ok none)

/-- Reading a length does not fail. -/
theorem ok_of_feed_lengthReader {n : Nat} {bytes rest : Bytes} {r : Outcome Nat}
    (h : (lengthReader n).feed bytes = some (r, rest)) : ∃ length, r = .ok length := by
  have number (size : Nat) (h : (numberReader size).feed bytes = some (r, rest)) :
      ∃ length, r = .ok length := by
    rw [numberReader, Reader.feed] at h
    split at h
    · cases h
      exact ⟨_, rfl⟩
    · cases h
  rw [lengthReader] at h
  split at h
  · exact number 2 h
  · split at h
    · exact number 8 h
    · cases h
      exact ⟨n, rfl⟩

/-- Nor does reading a mask. -/
theorem ok_of_feed_maskReader {masked : Bool} {bytes rest : Bytes} {r : Outcome (Option Mask)}
    (h : (maskReader masked).feed bytes = some (r, rest)) : ∃ mask, r = .ok mask := by
  rw [maskReader] at h
  split at h
  · rw [Reader.feed] at h
    split at h
    · cases h
      exact ⟨_, rfl⟩
    · cases h
  · cases h
    exact ⟨none, rfl⟩

namespace Frame

/-- The first two bytes of a frame and the length of its payload. -/
def headReader : Reader (Nat × Nat × Nat) :=
  .need 2 fun header =>
    let first := (header.getD 0 0).toNat
    let second := (header.getD 1 0).toNat
    (lengthReader (second % 128)).bind fun length => .done (.ok (first, second, length))

/-- The rest of a frame. -/
def bodyReader (first second length : Nat) : Reader Frame :=
  if maxMessage < length then
    .done (.error (.exhausted ("websocket frame of " ++ toString length ++ " bytes")))
  else
    (maskReader (128 ≤ second)).bind fun mask => .need length fun payload => .done (.ok {
      final := 128 ≤ first
      opcode := first % 16
      payload := match mask with | some m => applyMask m payload | none => payload })

/-- Reads a whole frame. -/
def reader : Reader Frame :=
  headReader.bind fun head => bodyReader head.1 head.2.1 head.2.2

end Frame

theorem readLength_eq (d : Deadline) (n : Nat) :
    readLength d n = (lengthReader n).run d readOperation := by
  rw [readLength, lengthReader]
  split
  · rfl
  · split <;> rfl

theorem readMask_eq (d : Deadline) (masked : Bool) :
    readMask d masked = (maskReader masked).run d readOperation := by
  rw [readMask, maskReader]
  split
  · funext w
    rw [Io.bind_apply, Reader.run, Io.bind_apply]
    rcases Io.readFull d readOperation 4 w with ⟨e | bytes, w'⟩
    · rfl
    · rcases bytes with _ | ⟨a, _ | ⟨b, _ | ⟨c, _ | ⟨e, _ | ⟨x, rest⟩⟩⟩⟩⟩
      all_goals rfl
  · rfl

/-- **What runs is the reader.** -/
theorem readFrame_eq (d : Deadline) : readFrame d = Frame.reader.run d readOperation := by
  funext w
  rw [readFrame, Frame.reader, Reader.run_bind, Frame.headReader, Reader.run, Io.bind_apply,
    Io.bind_apply, Io.bind_apply]
  rcases Io.readFull d readOperation 2 w with ⟨e | header, w₁⟩
  · rfl
  · simp only [Reader.run_bind, readLength_eq, Io.bind_apply]
    rcases (lengthReader ((header.getD 1 0).toNat % 128)).run d readOperation w₁ with
      ⟨e | length, w₂⟩
    · rfl
    · simp only [Reader.run, Frame.bodyReader]
      split
      · rfl
      · simp only [Reader.run_bind, readMask_eq, Io.bind_apply]
        rcases (maskReader (decide (128 ≤ (header.getD 1 0).toNat))).run d readOperation w₂ with
          ⟨e | mask, w₃⟩
        · rfl
        · simp only [Reader.run, Io.bind_apply]
          rfl

/-! ## Frames that are written -/

theorem maskBit_le (mask : Option Mask) : maskBit mask ≤ 128 := by
  rw [maskBit]
  split <;> decide

theorem maskBit_mod (mask : Option Mask) {n : Nat} (h : n < 128) :
    (maskBit mask + n) % 128 = n := by
  cases mask
  · show (0 + n) % 128 = n
    omega
  · show (128 + n) % 128 = n
    omega

theorem le_maskBit_add (mask : Option Mask) {n : Nat} (h : n < 128) :
    decide (128 ≤ maskBit mask + n) = mask.isSome := by
  cases mask
  · show decide (128 ≤ 0 + n) = false
    rw [decide_eq_false_iff_not]
    omega
  · show decide (128 ≤ 128 + n) = true
    rw [decide_eq_true_eq]
    omega

/-- The mask and the payload as they stand in a frame. -/
def maskedBytes (mask : Option Mask) (payload : Bytes) : Bytes :=
  match mask with
  | some m => [m.1, m.2.1, m.2.2.1, m.2.2.2] ++ applyMask m payload
  | none => payload

namespace Frame

/-- A payload is found again behind the head of its frame. -/
theorem feed_bodyReader {first second : Nat} {payload : Bytes} {mask : Option Mask}
    (hlen : payload.length ≤ maxMessage) (hmask : decide (128 ≤ second) = mask.isSome)
    (rest : Bytes) :
    (bodyReader first second payload.length).feed (maskedBytes mask payload ++ rest) =
      some (.ok ⟨128 ≤ first, first % 16, payload⟩, rest) := by
  rw [bodyReader, if_neg (Nat.not_lt.2 hlen), Reader.feed_bind, hmask]
  cases mask with
  | none =>
    show (Reader.need payload.length _).feed (payload ++ rest) = _
    rw [Reader.feed_need rfl]
    rfl
  | some m =>
    rw [Option.isSome_some, maskReader, if_pos rfl, maskedBytes, List.append_assoc,
      Reader.feed_need (show [m.1, m.2.1, m.2.2.1, m.2.2.2].length = 4 from rfl)]
    simp only [Reader.feed_done]
    rw [Reader.feed_need (length_applyMask m payload), applyMask_applyMask]
    rfl

/-- The head of a frame is found again before its mask and its payload. -/
theorem feed_headReader {first : Nat} (hfirst : first < 256) (mask : Option Mask) {n : Nat}
    (hn : n < 2 ^ 64) (rest : Bytes) :
    ∃ second, decide (128 ≤ second) = mask.isSome ∧
      headReader.feed (first.toUInt8 :: (lengthBytes mask n ++ rest)) =
        some (.ok (first, second, n), rest) := by
  have hm := maskBit_le mask
  -- the second byte says the length itself, or how many bytes behind it do
  have head (k : Nat) (hk : k < 128) (bytes : Bytes) :
      headReader.feed (first.toUInt8 :: (maskBit mask + k).toUInt8 :: bytes) =
        ((lengthReader k).bind fun length =>
          .done (.ok (first, maskBit mask + k, length))).feed bytes := by
    show headReader.feed ([first.toUInt8, (maskBit mask + k).toUInt8] ++ bytes) = _
    rw [headReader, Reader.feed_need (show List.length [_, _] = 2 from rfl)]
    simp only [List.getD_cons_zero, List.getD_cons_succ]
    rw [toNat_toUInt8 hfirst, toNat_toUInt8 (by omega), maskBit_mod mask hk]
  by_cases h₁ : n < 126
  · refine ⟨maskBit mask + n, le_maskBit_add mask (by omega), ?_⟩
    rw [lengthBytes, if_pos h₁, List.singleton_append, head n (by omega), lengthReader,
      if_neg (by omega), if_neg (by omega)]
    rfl
  · by_cases h₂ : n < 65536
    · refine ⟨maskBit mask + 126, le_maskBit_add mask (by omega), ?_⟩
      rw [lengthBytes, if_neg h₁, if_pos h₂, List.cons_append, head 126 (by omega), lengthReader,
        if_pos rfl, numberReader, Reader.bind, Reader.feed_need (Sha1.length_bigEndian 2 n),
        Sha1.ofBigEndian_bigEndian_of_lt h₂]
      rfl
    · refine ⟨maskBit mask + 127, le_maskBit_add mask (by omega), ?_⟩
      rw [lengthBytes, if_neg h₁, if_neg h₂, List.cons_append, head 127 (by omega), lengthReader,
        if_neg (by omega), if_pos rfl, numberReader, Reader.bind,
        Reader.feed_need (Sha1.length_bigEndian 8 n),
        Sha1.ofBigEndian_bigEndian_of_lt (by rwa [show 256 ^ 8 = 2 ^ 64 by decide])]
      rfl

/-- **A frame that is written is read again**, and what stands behind it is left. -/
theorem feed_writeFrame (final : Bool) {opcode : Nat} (hop : opcode < 16) {payload : Bytes}
    (hlen : payload.length ≤ maxMessage) (mask : Option Mask) (rest : Bytes) :
    reader.feed (writeFrame final opcode payload mask ++ rest) =
      some (.ok ⟨final, opcode, payload⟩, rest) := by
  have hfinal : decide (128 ≤ (if final then 0x80 else 0) + opcode) = final := by
    cases final
    · exact decide_eq_false (by simp only [Bool.false_eq_true, if_false]; omega)
    · exact decide_eq_true (Nat.le_add_right ..)
  have hopcode : ((if final then 0x80 else 0) + opcode) % 16 = opcode := by
    split <;> omega
  have hbytes : writeFrame final opcode payload mask ++ rest =
      ((if final then 0x80 else 0) + opcode).toUInt8 ::
        (lengthBytes mask payload.length ++ (maskedBytes mask payload ++ rest)) := by
    rw [writeFrame.eq_def, List.cons_append, List.append_assoc]
    cases mask <;> rfl
  have hfirst : (if final then 0x80 else 0) + opcode < 256 := by
    split <;> omega
  obtain ⟨second, hmask, hhead⟩ := feed_headReader hfirst mask
    (Nat.lt_of_le_of_lt hlen (by decide)) (maskedBytes mask payload ++ rest)
  rw [hbytes, reader, Reader.feed_bind, hhead]
  simp only
  rw [feed_bodyReader hlen hmask, hfinal, hopcode]

/-! ## The length that is announced -/

/-- The length of the payload, as soon as the bytes say it. -/
def announced? (bytes : Bytes) : Option Nat :=
  match headReader.feed bytes with
  | some (.ok head, _) => some head.2.2
  | _ => none

theorem announced?_append {bytes : Bytes} {n : Nat} (h : announced? bytes = some n) (more : Bytes) :
    announced? (bytes ++ more) = some n := by
  rw [announced?] at h
  split at h
  · rename_i hf
    rw [announced?, Reader.feed_append hf]
    exact h
  · cases h

theorem feed_headReader_spec {bytes rest : Bytes} {r : Outcome (Nat × Nat × Nat)}
    (h : headReader.feed bytes = some (r, rest)) :
    (∃ head, r = .ok head) ∧ rest.length + 2 ≤ bytes.length := by
  rw [headReader, Reader.feed] at h
  split at h
  · rename_i hle
    refine ⟨?_, ?_⟩
    · rw [Reader.feed_bind] at h
      split at h
      · cases h
        exact ⟨_, rfl⟩
      · rename_i hlength
        obtain ⟨length, hok⟩ := ok_of_feed_lengthReader hlength
        cases hok
      · cases h
    · have hlen := Reader.length_le_of_feed h
      rw [List.length_drop] at hlen
      omega
  · cases h

/-- A frame that is too long is refused before anything behind its head is taken. -/
theorem feed_bodyReader_spec {first second n : Nat} {bytes rest : Bytes} {r : Outcome Frame}
    (h : (bodyReader first second n).feed bytes = some (r, rest)) :
    maxMessage < n ∧ rest = bytes ∧
        r = .error (.exhausted ("websocket frame of " ++ toString n ++ " bytes")) ∨
      n ≤ maxMessage ∧ ∃ f, r = .ok f ∧ f.payload.length = n ∧ n + rest.length ≤ bytes.length := by
  rw [bodyReader] at h
  split at h
  · rename_i hlong
    cases h
    exact .inl ⟨hlong, rfl, rfl⟩
  · rename_i hlong
    rw [Reader.feed_bind] at h
    split at h
    · rename_i mask rest' hmask
      have hle := Reader.length_le_of_feed hmask
      rw [Reader.feed] at h
      split at h
      · rename_i hn
        cases h
        refine .inr ⟨Nat.not_lt.1 hlong, _, rfl, ?_, ?_⟩
        · cases mask with
          | none => exact List.length_take_of_le hn
          | some m => exact (length_applyMask ..).trans (List.length_take_of_le hn)
        · rw [List.length_drop]
          omega
      · cases h
    · rename_i hmask
      obtain ⟨mask, hok⟩ := ok_of_feed_maskReader hmask
      cases hok
    · cases h

/-- What is read as a frame: one that is too long is refused, and any other has the length that its
head has announced. -/
theorem feed_spec {bytes rest : Bytes} {r : Outcome Frame}
    (h : reader.feed bytes = some (r, rest)) :
    rest.length + 2 ≤ bytes.length ∧
      ((∃ message, r = .error (.exhausted message)) ∨
        ∃ f, r = .ok f ∧ announced? bytes = some f.payload.length ∧
          f.payload.length + rest.length + 2 ≤ bytes.length) := by
  rw [reader, Reader.feed_bind] at h
  split at h
  · rename_i head rest' hhead
    obtain ⟨-, hlen⟩ := feed_headReader_spec hhead
    have hle := Reader.length_le_of_feed h
    refine ⟨by omega, ?_⟩
    obtain ⟨-, -, rfl⟩ | ⟨-, f, rfl, hf, hlen'⟩ := feed_bodyReader_spec h
    · exact .inl ⟨_, rfl⟩
    · refine .inr ⟨f, rfl, ?_, by omega⟩
      rw [announced?, hhead]
      exact congrArg some hf.symm
  · rename_i hhead
    obtain ⟨⟨head, hok⟩, -⟩ := feed_headReader_spec hhead
    cases hok
  · cases h

theorem announced?_cons_cons (a b : UInt8) (bytes : Bytes) :
    announced? (a :: b :: bytes) =
      match (lengthReader (b.toNat % 128)).feed bytes with
      | some (.ok n, _) => some n
      | _ => none := by
  have hhead : headReader.feed ([a, b] ++ bytes) = _ :=
    Reader.feed_need (show [a, b].length = 2 from rfl)
  simp only [List.getD_cons_zero, List.getD_cons_succ, Reader.feed_bind] at hhead
  show announced? ([a, b] ++ bytes) = _
  rw [announced?, hhead]
  rcases (lengthReader (b.toNat % 128)).feed bytes with _ | ⟨e | n, rest⟩ <;> rfl

/-- Bytes of a number that break off, with these two behind them, make a large number. -/
theorem le_ofBigEndian_take {bytes : Bytes} {size : Nat} (hlt : bytes.length < size)
    (hle : size ≤ (bytes ++ [0x8a, 0]).length) :
    138 ≤ Sha1.ofBigEndian ((bytes ++ [0x8a, 0]).take size) := by
  rw [List.length_append, List.length_cons, List.length_singleton] at hle
  have hone : Sha1.ofBigEndian (bytes ++ [0x8a]) = Sha1.ofBigEndian bytes * 256 + 138 :=
    Sha1.ofBigEndian_concat ..
  by_cases hsize : size = bytes.length + 1
  · rw [hsize, List.take_length_add_append, List.take_succ_cons, List.take_zero, hone]
    omega
  · have htwo : bytes ++ [0x8a, 0] = (bytes ++ [0x8a]) ++ [0] := by simp
    rw [List.take_of_length_le (by simp; omega), htwo, Sha1.ofBigEndian_concat, hone]
    omega

/-- Bytes that break off before they say the length, with these two behind them, announce a payload
that they do not hold. -/
theorem length_lt_of_announced? {bytes : Bytes} (hne : bytes ≠ []) (hnone : announced? bytes = none)
    {n : Nat} (h : announced? (bytes ++ [0x8a, 0]) = some n) : bytes.length < n := by
  match bytes with
  | [] => exact absurd rfl hne
  | [a] =>
    rw [List.singleton_append, announced?_cons_cons] at h
    obtain rfl : 10 = n := Option.some_inj.1 h
    exact (by decide : 1 < 10)
  | a :: b :: bytes =>
    rw [announced?_cons_cons] at hnone
    rw [List.cons_append, List.cons_append, announced?_cons_cons] at h
    -- the length stands in so many bytes behind the head, some of which are missing
    have large (size : Nat) (hsize : size ≤ 8)
        (hnone : (match (numberReader size).feed bytes with
          | some (.ok n, _) => some n
          | _ => none) = none)
        (h : (match (numberReader size).feed (bytes ++ [0x8a, 0]) with
          | some (.ok n, _) => some n
          | _ => none) = some n) : (a :: b :: bytes).length < n := by
      have hlt : bytes.length < size := by
        by_contra hge
        rw [numberReader, Reader.feed, if_pos (Nat.not_lt.1 hge)] at hnone
        cases hnone
      rw [numberReader, Reader.feed] at h
      split at h
      · rename_i hf
        split at hf
        · rename_i hle
          cases hf
          have hlarge := le_ofBigEndian_take hlt hle
          obtain rfl := Option.some_inj.1 h
          rw [List.length_cons, List.length_cons]
          omega
        · cases hf
      · cases h
    by_cases h₁ : b.toNat % 128 = 126
    · rw [lengthReader, if_pos h₁] at hnone h
      exact large 2 (by decide) hnone h
    · by_cases h₂ : b.toNat % 128 = 127
      · rw [lengthReader, if_neg h₁, if_pos h₂] at hnone h
        exact large 8 (by decide) hnone h
      · rw [lengthReader, if_neg h₁, if_neg h₂] at hnone
        cases hnone

end Frame

end WebSocket

end ScriptHost
