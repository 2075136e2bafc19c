import D3Hack.GameMemory
import D3Hack.Loops
import D3Hack.ProtoWire
import Mathlib.Data.Nat.Bitwise

/-!
# The weekly challenge recogniser

A debugging hook looks at the strings that the game parses as protobuf messages, and logs those
that look like the data of a weekly challenge. `parseWeeklyChallengeTopLevel` walks over the
fields of a string with an index that `readVarint` and the lengths of the fields advance.

The walk keeps what it has seen of the fields before the first place where no field follows:
there it stops, and the rest of the string does not matter. `parseWeeklyChallengeTopLevel_spec`
says that it ends, and when it recognises a string.
-/

namespace D3Hack

open Loops ProtoWire

/-! ## The hook -/

/-- The loop of `ReadVarint`: whether a number was read, the index after it, and the number. The
bytes are read at indices inside the string only. -/
def readVarintFrom (data : List UInt8) (idx shift : ℕ) (out : BitVec 64) :
    Bool × ℕ × BitVec 64 :=
  if h : idx < data.length ∧ shift < 64 then
    let byte := data[idx]
    let out := out ||| (byte &&& 0x7F).toBitVec.setWidth 64 <<< shift
    if byte &&& 0x80 = 0 then (true, idx + 1, out)
    else readVarintFrom data (idx + 1) (shift + 7) out
  else (false, idx, out)
termination_by 64 - shift

/-- `ReadVarint`. -/
def readVarint (data : List UInt8) (idx : ℕ) : Bool × ℕ × BitVec 64 :=
  readVarintFrom data idx 0 0

/-- The out parameters of `ParseWeeklyChallengeTopLevel`. -/
structure WeeklyFields where
  f1 : BitVec 32 := 0
  f2 : BitVec 32 := 0
  f3 : BitVec 32 := 0
  f4 : BitVec 64 := 0
  deriving DecidableEq

/-- What the walk has seen: the flags `has1` to `has4`, and the out parameters. -/
structure WeeklySeen where
  has1 : Bool := false
  has2 : Bool := false
  has3 : Bool := false
  has4 : Bool := false
  out : WeeklyFields := {}
  deriving DecidableEq

/-- The variables of the walk. -/
structure WeeklyScan where
  idx : ℕ := 0
  seen : WeeklySeen := {}
  deriving DecidableEq

/-- What the walk keeps of a varint. -/
def WeeklySeen.varint (seen : WeeklySeen) (field : BitVec 32) (value : BitVec 64) : WeeklySeen :=
  if field = 4 then { seen with out := { seen.out with f4 := value }, has4 := true } else seen

/-- What the walk keeps of the length of a field. -/
def WeeklySeen.length (seen : WeeklySeen) (field : BitVec 32) (length : BitVec 64) :
    WeeklySeen :=
  if field = 1 then
    { seen with out := { seen.out with f1 := length.setWidth 32 }, has1 := true }
  else if field = 2 then
    { seen with out := { seen.out with f2 := length.setWidth 32 }, has2 := true }
  else if field = 3 then
    { seen with out := { seen.out with f3 := length.setWidth 32 }, has3 := true }
  else seen

/-- The body of the loop of `ParseWeeklyChallengeTopLevel`: whether it goes on. -/
def parseField (data : List UInt8) (st : WeeklyScan) : Bool × WeeklyScan :=
  match readVarint data st.idx with
  | (false, idx, _) => (false, { st with idx })
  | (true, idx, tag) =>
    let field : BitVec 32 := (tag >>> 3).setWidth 32
    let wire : BitVec 32 := (tag &&& 0x7).setWidth 32
    if wire = 0 then
      match readVarint data idx with
      | (false, idx, _) => (false, { st with idx })
      | (true, idx, value) => (true, { idx, seen := st.seen.varint field value })
    else if wire = 2 then
      match readVarint data idx with
      | (false, idx, _) => (false, { st with idx })
      | (true, idx, length) =>
        if length.toNat > data.length - idx then (false, { st with idx })
        else (true, { idx := idx + length.toNat, seen := st.seen.length field length })
    else (false, { st with idx })

/-- `ParseWeeklyChallengeTopLevel`: its result and its out parameters, if its loop is over after
as many iterations as the string has bytes. -/
def parseWeeklyChallengeTopLevel (data : Option BlzString) (out : WeeklyFields) :
    Option (Bool × WeeklyFields) :=
  match data with
  | none => some (false, out)
  | some data =>
    if data.elements = .null ∨ data.content.bytes.length = 0 then some (false, out)
    else
      let bytes := data.content.bytes
      (loop (fun st : WeeklyScan => decide (st.idx < bytes.length)) (parseField bytes)
        bytes.length {}).map fun st =>
          (st.seen.has1 && st.seen.has2 && st.seen.has3 && st.seen.has4, st.seen.out)

/-! ## Reading a varint -/

theorem toNat_low7 (byte : UInt8) :
    ((byte &&& 0x7F).toBitVec.setWidth 64).toNat = byte.toNat % 128 := by
  rw [BitVec.toNat_setWidth, UInt8.toNat_toBitVec, UInt8.toNat_and]
  change (byte.toNat &&& 2 ^ 7 - 1) % 2 ^ 64 = byte.toNat % 128
  rw [Nat.and_two_pow_sub_one_eq_mod]
  omega

theorem high_bit_eq_zero_iff (byte : UInt8) : byte &&& 0x80 = 0 ↔ byte.toNat < 128 := by
  rw [← UInt8.toNat_inj, UInt8.toNat_and]
  change byte.toNat &&& 2 ^ 7 = 0 ↔ byte.toNat < 128
  have hlt := byte.toNat_lt
  rw [Nat.and_two_pow, Nat.testBit_eq_decide_div_mod_eq]
  rcases Nat.lt_or_ge byte.toNat 128 with hlow | hhigh
  · have hdiv : ¬byte.toNat / 2 ^ 7 % 2 = 1 := by omega
    rw [decide_eq_false hdiv]
    simpa using hlow
  · have hdiv : byte.toNat / 2 ^ 7 % 2 = 1 := by omega
    rw [decide_eq_true hdiv]
    simpa using hhigh

/-- A group of seven bits that is added above the ones read so far. -/
theorem toNat_group {out : BitVec 64} {shift : ℕ} (byte : UInt8) (hshift : shift < 64)
    (hout : out.toNat < 2 ^ shift) :
    (out ||| (byte &&& 0x7F).toBitVec.setWidth 64 <<< shift).toNat =
      (out.toNat + byte.toNat % 128 * 2 ^ shift) % 2 ^ 64 := by
  have hpow : 2 ^ 64 = 2 ^ (64 - shift) * 2 ^ shift := by
    rw [← Nat.pow_add, Nat.sub_add_cancel hshift.le]
  have hle : 2 ^ shift ≤ 2 ^ 64 := Nat.pow_le_pow_right (by omega) hshift.le
  have hgroup : byte.toNat % 128 * 2 ^ shift % 2 ^ 64 =
      2 ^ shift * (byte.toNat % 128 % 2 ^ (64 - shift)) := by
    rw [hpow, Nat.mul_mod_mul_right, Nat.mul_comm]
  have hor := Nat.two_pow_add_eq_or_of_lt hout (byte.toNat % 128 % 2 ^ (64 - shift))
  have hlt : 2 ^ shift * (byte.toNat % 128 % 2 ^ (64 - shift)) + out.toNat < 2 ^ 64 := by
    rw [hor]
    refine Nat.or_lt_two_pow ?_ (hout.trans_le hle)
    rw [← hgroup]
    exact Nat.mod_lt _ (Nat.two_pow_pos 64)
  rw [BitVec.toNat_or, BitVec.toNat_shiftLeft, toNat_low7, Nat.shiftLeft_eq, Nat.add_mod,
    hgroup, Nat.or_comm, ← hor, Nat.mod_eq_of_lt out.isLt, Nat.add_comm out.toNat,
    Nat.mod_eq_of_lt hlt]

/-- With `k` groups read, a varint that follows is read to its end. -/
theorem readVarintFrom_append {bs : List UInt8} (before rest : List UInt8) {k : ℕ}
    {out : BitVec 64} (hbs : Terminated bs) (hk : k + bs.length ≤ 10)
    (hout : out.toNat < 2 ^ (7 * k)) :
    readVarintFrom (before ++ (bs ++ rest)) before.length (7 * k) out =
      (true, before.length + bs.length,
        BitVec.ofNat 64 (out.toNat + varintValue bs * 2 ^ (7 * k))) := by
  induction bs generalizing before k out with
  | nil => exact absurd hbs id
  | cons byte bs ih =>
    rw [List.length_cons] at hk
    have hin : before.length < (before ++ (byte :: bs ++ rest)).length ∧ 7 * k < 64 := by
      refine ⟨?_, by omega⟩
      simp
    have hnext := toNat_group byte hin.2 hout
    rw [readVarintFrom, dif_pos hin]
    simp only [List.cons_append, List.getElem_append_right (Nat.le_refl before.length),
      Nat.sub_self, List.getElem_cons_zero]
    rcases hbs with ⟨hlow, rfl⟩ | ⟨hhigh, hbs⟩
    · rw [if_pos ((high_bit_eq_zero_iff byte).2 hlow)]
      refine Prod.ext rfl (Prod.ext rfl (BitVec.eq_of_toNat_eq ?_))
      rw [hnext, BitVec.toNat_ofNat]
      simp [varintValue]
    · rw [if_neg fun h => absurd ((high_bit_eq_zero_iff byte).1 h) (Nat.not_lt.2 hhigh)]
      have hbound : (out ||| (byte &&& 0x7F).toBitVec.setWidth 64 <<< (7 * k)).toNat <
          2 ^ (7 * (k + 1)) := by
        rw [hnext]
        refine (Nat.mod_le _ _).trans_lt ?_
        have hpow : 2 ^ (7 * (k + 1)) = 128 * 2 ^ (7 * k) := by
          rw [Nat.mul_add, Nat.pow_add, Nat.mul_comm]
        have hmul : byte.toNat % 128 * 2 ^ (7 * k) ≤ 127 * 2 ^ (7 * k) :=
          Nat.mul_le_mul_right _ (by omega)
        omega
      have h := ih (before ++ [byte]) hbs (k := k + 1) (by omega) hbound
      rw [List.append_assoc, List.singleton_append, List.length_append,
        List.length_singleton] at h
      rw [← Nat.mul_succ 7 k, h, List.length_cons]
      refine Prod.ext rfl (Prod.ext (by dsimp only; omega) (BitVec.eq_of_toNat_eq ?_))
      rw [BitVec.toNat_ofNat, BitVec.toNat_ofNat, hnext, Nat.mod_add_mod, varintValue,
        Nat.mul_add, Nat.pow_add]
      congr 1
      ring

/-- What is read is a varint. -/
theorem readVarintFrom_sound (before tail : List UInt8) {k : ℕ} {out : BitVec 64}
    (h : (readVarintFrom (before ++ tail) before.length (7 * k) out).1 = true) :
    ∃ bs rest, tail = bs ++ rest ∧ Terminated bs ∧ k + bs.length ≤ 10 := by
  induction tail generalizing before k out with
  | nil =>
    rw [readVarintFrom, dif_neg (by simp)] at h
    cases h
  | cons byte tail ih =>
    rw [readVarintFrom] at h
    split_ifs at h with hin
    simp only [List.getElem_append_right (Nat.le_refl before.length), Nat.sub_self,
      List.getElem_cons_zero] at h
    split_ifs at h with hlow
    · exact ⟨[byte], tail, rfl, Or.inl ⟨(high_bit_eq_zero_iff byte).1 hlow, rfl⟩, by
        rw [List.length_singleton]
        omega⟩
    · have hnext := ih (before ++ [byte]) (k := k + 1) (by
        rw [List.append_assoc, List.singleton_append, List.length_append]
        exact h)
      obtain ⟨bs, rest, rfl, hbs, hlength⟩ := hnext
      have hhigh := mt (high_bit_eq_zero_iff byte).2 hlow
      refine ⟨byte :: bs, rest, rfl, Or.inr ⟨Nat.not_lt.1 hhigh, hbs⟩, ?_⟩
      rw [List.length_cons]
      omega

/-- A varint at the index is read. -/
theorem readVarint_append {bs : List UInt8} (before rest : List UInt8) (hbs : IsVarint bs) :
    readVarint (before ++ (bs ++ rest)) before.length =
      (true, before.length + bs.length, BitVec.ofNat 64 (varintValue bs)) := by
  have hout : (0#64).toNat < 2 ^ (7 * 0) := by simp
  have h := readVarintFrom_append before rest hbs.1 (by rw [Nat.zero_add]; exact hbs.2) hout
  simpa [readVarint] using h

/-- Either a varint is at the index, or nothing is read. -/
theorem readVarint_cases (before tail : List UInt8) :
    (∃ bs rest, tail = bs ++ rest ∧ IsVarint bs) ∨
      ∃ idx out, readVarint (before ++ tail) before.length = (false, idx, out) := by
  rcases h : readVarint (before ++ tail) before.length with ⟨_ | _, idx, out⟩
  · exact Or.inr ⟨idx, out, rfl⟩
  · have hread : (readVarintFrom (before ++ tail) before.length (7 * 0) 0).1 = true :=
      congrArg Prod.fst h
    obtain ⟨bs, rest, htail, hbs, hlength⟩ := readVarintFrom_sound before tail hread
    exact Or.inl ⟨bs, rest, htail, hbs, by omega⟩

/-! ## Walking over the fields -/

/-- What the walk keeps of a field. -/
def WeeklySeen.record (seen : WeeklySeen) (f : ℕ × FieldValue) : WeeklySeen :=
  match f.2 with
  | .varint value => seen.varint (BitVec.ofNat 32 f.1) value
  | .bytes payload => seen.length (BitVec.ofNat 32 f.1) (BitVec.ofNat 64 payload.length)

theorem field_of_tag (tag : BitVec 64) :
    (tag >>> 3).setWidth 32 = BitVec.ofNat 32 (tag.toNat / 8) := by
  refine BitVec.eq_of_toNat_eq ?_
  rw [BitVec.toNat_setWidth, BitVec.toNat_ushiftRight, BitVec.toNat_ofNat,
    Nat.shiftRight_eq_div_pow]

theorem wire_eq_iff (tag : BitVec 64) (wire : BitVec 32) :
    (tag &&& 0x7).setWidth 32 = wire ↔ tag.toNat % 8 = wire.toNat := by
  rw [← BitVec.toNat_inj, BitVec.toNat_setWidth, BitVec.toNat_and]
  change (tag.toNat &&& 2 ^ 3 - 1) % 2 ^ 32 = wire.toNat ↔ _
  rw [Nat.and_two_pow_sub_one_eq_mod, Nat.mod_eq_of_lt (by omega : tag.toNat % 2 ^ 3 < 2 ^ 32)]
  rfl

/-- A field at the index is kept and passed. -/
theorem parseField_field {first : List UInt8} {f : ℕ × FieldValue} (before rest : List UInt8)
    (hfirst : IsField first f.1 f.2) {st : WeeklyScan} (hidx : st.idx = before.length) :
    parseField (before ++ (first ++ rest)) st =
      (true, { idx := before.length + first.length, seen := st.seen.record f }) := by
  obtain ⟨number, value⟩ := f
  obtain ⟨tag, body, rfl, htag, rfl, hvalue⟩ := hfirst
  have htagRead := readVarint_append before (body ++ rest) htag
  rw [← List.length_append] at htagRead
  rw [parseField, hidx, List.append_assoc, htagRead]
  dsimp only
  rw [field_of_tag]
  cases value with
  | varint value =>
    obtain ⟨hwire, hbody, rfl⟩ := hvalue
    have hread := readVarint_append (before ++ tag) rest hbody
    rw [List.append_assoc] at hread
    rw [if_pos ((wire_eq_iff _ 0).2 hwire), hread]
    simp [WeeklySeen.record, Nat.add_assoc]
  | bytes payload =>
    obtain ⟨hwire, size, rfl, hsize, hlength⟩ := hvalue
    have hread := readVarint_append (before ++ tag) (payload ++ rest) hsize
    rw [List.append_assoc] at hread
    have hvarint : ¬(BitVec.ofNat 64 (varintValue tag)).toNat % 8 = 0 := by omega
    rw [if_neg (mt (wire_eq_iff _ 0).1 hvarint), if_pos ((wire_eq_iff _ 2).2 hwire),
      List.append_assoc, hread]
    dsimp only
    rw [if_neg (by rw [hlength]; simp only [List.length_append]; omega), hlength,
      WeeklySeen.record]
    dsimp only
    rw [← hlength, BitVec.ofNat_toNat, BitVec.setWidth_eq, hlength]
    simp [Nat.add_assoc]

/-- Where no field follows, the walk stops. -/
theorem parseField_noField {tail : List UInt8} (before : List UInt8) (htail : NoField tail)
    {st : WeeklyScan} (hidx : st.idx = before.length) :
    ∃ idx, parseField (before ++ tail) st = (false, { st with idx }) := by
  rcases readVarint_cases before tail with ⟨tag, body, rfl, htag⟩ | ⟨idx, out, hread⟩
  · have htagRead := readVarint_append before body htag
    rw [← List.length_append] at htagRead
    rw [parseField, hidx, htagRead]
    dsimp only
    rw [← List.append_assoc]
    split_ifs with hvarint hbytes
    · have hwire := (wire_eq_iff _ 0).1 hvarint
      rcases readVarint_cases (before ++ tag) body with ⟨bs, rest, rfl, hbs⟩ | ⟨idx, out, hread⟩
      · exact absurd ⟨tag, bs, rfl, htag, rfl, hwire, hbs, rfl⟩
          (htail (tag ++ bs) rest _ (.varint _) (List.append_assoc tag bs rest).symm)
      · exact ⟨idx, by rw [hread]⟩
    · have hwire := (wire_eq_iff _ 2).1 hbytes
      rcases readVarint_cases (before ++ tag) body with ⟨size, tail, rfl, hsize⟩ | ⟨idx, out, hread⟩
      · rw [readVarint_append _ _ hsize]
        dsimp only
        refine ⟨_, if_pos (Nat.lt_of_not_le fun hroom => ?_)⟩
        -- The length is that of bytes that are there, so that a field follows.
        simp only [List.length_append] at hroom
        have hle : (BitVec.ofNat 64 (varintValue size)).toNat ≤ tail.length := by omega
        obtain ⟨payload, rest, rfl, hpayload⟩ : ∃ payload rest, tail = payload ++ rest ∧
            payload.length = (BitVec.ofNat 64 (varintValue size)).toNat :=
          ⟨_, _, (List.take_append_drop _ tail).symm, List.length_take_of_le hle⟩
        exact htail (tag ++ (size ++ payload)) rest _ (.bytes payload) (by simp)
          ⟨tag, _, rfl, htag, rfl, hwire, size, rfl, hsize, hpayload.symm⟩
      · exact ⟨idx, by rw [hread]⟩
    · exact ⟨_, rfl⟩
  · exact ⟨idx, by rw [parseField, hidx, hread]⟩

/-- The walk is over within as many iterations as bytes follow the index, and has seen the fields
that the bytes begin with. -/
theorem loop_parseField {tail rest : List UInt8} {fields : List (ℕ × FieldValue)}
    (before : List UInt8) (h : Splits tail fields rest) {n : ℕ} (hn : tail.length ≤ n)
    (st : WeeklyScan) (hidx : st.idx = before.length) :
    ∃ idx, loop (fun st : WeeklyScan => decide (st.idx < (before ++ tail).length))
      (parseField (before ++ tail)) n st =
        some { idx, seen := fields.foldl WeeklySeen.record st.seen } := by
  induction fields generalizing before tail n st with
  | nil =>
    obtain ⟨rfl, hnone⟩ := h
    cases tail with
    | nil => exact ⟨st.idx, loop_of_not (by simp [hidx])⟩
    | cons b bs =>
      obtain ⟨n, rfl⟩ := Nat.exists_eq_add_of_le' (Nat.le_trans (Nat.succ_pos _) hn)
      obtain ⟨idx, hbody⟩ := parseField_noField before hnone hidx
      exact ⟨idx, loop_break (by simp [hidx]) hbody⟩
  | cons f fields ih =>
    obtain ⟨first, tail, rfl, hfirst, htail⟩ := h
    have hpos := hfirst.length_pos
    rw [List.length_append] at hn
    obtain ⟨n, rfl⟩ := Nat.exists_eq_add_of_le' (Nat.le_trans (by omega) hn : 1 ≤ n)
    have hbody := parseField_field before tail hfirst hidx
    rw [← List.length_append] at hbody
    obtain ⟨idx, hloop⟩ := ih (before ++ first) htail (n := n) (by omega)
      { idx := (before ++ first).length, seen := st.seen.record f } rfl
    rw [List.append_assoc] at hloop
    refine ⟨idx, (loop_go ?_ hbody).trans hloop⟩
    rw [hidx, List.length_append, List.length_append, decide_eq_true_eq]
    omega

/-! ## The strings that are recognised -/

/-- The lengths of the length-delimited fields of a number, which is compared in 32 bits. -/
def lengthsOf (number : ℕ) (fields : List (ℕ × FieldValue)) : List ℕ :=
  fields.filterMap fun f =>
    match f.2 with
    | .bytes payload => if f.1 % 2 ^ 32 = number then some payload.length else none
    | .varint _ => none

/-- The values of the varints of a number, which is compared in 32 bits. -/
def valuesOf (number : ℕ) (fields : List (ℕ × FieldValue)) : List (BitVec 64) :=
  fields.filterMap fun f =>
    match f.2 with
    | .bytes _ => none
    | .varint value => if f.1 % 2 ^ 32 = number then some value else none

/-- The fields of a weekly challenge are there. -/
def Recognised (fields : List (ℕ × FieldValue)) : Prop :=
  lengthsOf 1 fields ≠ [] ∧ lengthsOf 2 fields ≠ [] ∧ lengthsOf 3 fields ≠ [] ∧
    valuesOf 4 fields ≠ []

/-- The last lengths of the fields 1 to 3, as numbers of 32 bits, and the last value of
field 4. -/
def lastFields (fields : List (ℕ × FieldValue)) : WeeklyFields where
  f1 := BitVec.ofNat 32 ((lengthsOf 1 fields).getLastD 0)
  f2 := BitVec.ofNat 32 ((lengthsOf 2 fields).getLastD 0)
  f3 := BitVec.ofNat 32 ((lengthsOf 3 fields).getLastD 0)
  f4 := (valuesOf 4 fields).getLastD 0

/-- What the walk has seen after the fields. -/
def seenIn (fields : List (ℕ × FieldValue)) : WeeklySeen where
  has1 := decide (lengthsOf 1 fields ≠ [])
  has2 := decide (lengthsOf 2 fields ≠ [])
  has3 := decide (lengthsOf 3 fields ≠ [])
  has4 := decide (valuesOf 4 fields ≠ [])
  out := lastFields fields

theorem ofNat32_eq_iff {n k : ℕ} (hk : k < 2 ^ 32) :
    BitVec.ofNat 32 n = BitVec.ofNat 32 k ↔ n % 2 ^ 32 = k := by
  rw [← BitVec.toNat_inj, BitVec.toNat_ofNat, BitVec.toNat_ofNat, Nat.mod_eq_of_lt hk]

theorem lengthsOf_concat (k : ℕ) (fields : List (ℕ × FieldValue)) (f : ℕ × FieldValue) :
    lengthsOf k (fields ++ [f]) = lengthsOf k fields ++ lengthsOf k [f] :=
  List.filterMap_append

theorem valuesOf_concat (k : ℕ) (fields : List (ℕ × FieldValue)) (f : ℕ × FieldValue) :
    valuesOf k (fields ++ [f]) = valuesOf k fields ++ valuesOf k [f] :=
  List.filterMap_append

theorem lengthsOf_bytes (k number : ℕ) (payload : List UInt8) :
    lengthsOf k [(number, .bytes payload)] =
      if number % 2 ^ 32 = k then [payload.length] else [] := by
  split_ifs with h
  · exact List.filterMap_cons_some (if_pos h)
  · exact List.filterMap_cons_none (if_neg h)

theorem valuesOf_varint (k number : ℕ) (value : BitVec 64) :
    valuesOf k [(number, .varint value)] = if number % 2 ^ 32 = k then [value] else [] := by
  split_ifs with h
  · exact List.filterMap_cons_some (if_pos h)
  · exact List.filterMap_cons_none (if_neg h)

theorem record_varint (seen : WeeklySeen) (number : ℕ) (value : BitVec 64) :
    seen.record (number, .varint value) =
      if number % 2 ^ 32 = 4 then
        { seen with out := { seen.out with f4 := value }, has4 := true }
      else seen :=
  if_congr (ofNat32_eq_iff (k := 4) (by omega)) rfl rfl

theorem record_bytes (seen : WeeklySeen) (number : ℕ) (payload : List UInt8) :
    seen.record (number, .bytes payload) =
      if number % 2 ^ 32 = 1 then
        { seen with
          out := { seen.out with f1 := BitVec.ofNat 32 payload.length }, has1 := true }
      else if number % 2 ^ 32 = 2 then
        { seen with
          out := { seen.out with f2 := BitVec.ofNat 32 payload.length }, has2 := true }
      else if number % 2 ^ 32 = 3 then
        { seen with
          out := { seen.out with f3 := BitVec.ofNat 32 payload.length }, has3 := true }
      else seen := by
  have hwidth : (BitVec.ofNat 64 payload.length).setWidth 32 = BitVec.ofNat 32 payload.length :=
    BitVec.setWidth_ofNat_of_le (by omega) _
  rw [← hwidth]
  refine if_congr (ofNat32_eq_iff (k := 1) (by omega)) rfl ?_
  refine if_congr (ofNat32_eq_iff (k := 2) (by omega)) rfl ?_
  exact if_congr (ofNat32_eq_iff (k := 3) (by omega)) rfl rfl

/-- One more field. -/
theorem seenIn_concat (fields : List (ℕ × FieldValue)) (f : ℕ × FieldValue) :
    seenIn (fields ++ [f]) = (seenIn fields).record f := by
  obtain ⟨number, value⟩ := f
  cases value with
  | varint value =>
    have hlengths (k : ℕ) : lengthsOf k [(number, .varint value)] = [] := rfl
    simp only [seenIn, lastFields, record_varint, lengthsOf_concat, valuesOf_concat, hlengths,
      valuesOf_varint, List.append_nil]
    split_ifs <;> simp
  | bytes payload =>
    have hvalues : valuesOf 4 [(number, .bytes payload)] = [] := rfl
    simp only [seenIn, lastFields, record_bytes, lengthsOf_concat, valuesOf_concat, hvalues,
      lengthsOf_bytes, List.append_nil]
    split_ifs <;> first | omega | simp

theorem foldl_record (fields : List (ℕ × FieldValue)) :
    fields.foldl WeeklySeen.record {} = seenIn fields := by
  induction fields using List.reverseRecOn with
  | nil => rfl
  | append_singleton fields f ih => rw [List.foldl_append, ih, seenIn_concat]; rfl

/-- The content of the string, if it can be read. -/
def stringBytes (data : Option BlzString) : List UInt8 :=
  match data with
  | none => []
  | some data => if data.elements = .null then [] else data.content.bytes

theorem splits_nil {fields : List (ℕ × FieldValue)} {rest : List UInt8}
    (h : Splits [] fields rest) : fields = [] := by
  have hnil : Splits [] [] [] := ⟨rfl, noField_nil⟩
  exact (h.unique hnil).1

/-- What the hook answers about a string that splits into fields and a rest. -/
theorem parse_of_splits (data : Option BlzString) {fields : List (ℕ × FieldValue)}
    {rest : List UInt8} (h : Splits (stringBytes data) fields rest) (out : WeeklyFields) :
    ∃ ok result, parseWeeklyChallengeTopLevel data out = some (ok, result) ∧
      (ok = true ↔ Recognised fields) ∧ (ok = true → result = lastFields fields) := by
  by_cases hempty : stringBytes data = []
  · rw [hempty] at h
    obtain rfl := splits_nil h
    refine ⟨false, out, ?_, iff_of_false (by simp) fun h => h.1 rfl, fun h => by cases h⟩
    cases data with
    | none => rfl
    | some data =>
      refine if_pos (or_iff_not_imp_left.2 fun hnull => List.length_eq_zero_iff.2 ?_)
      exact (if_neg hnull).symm.trans hempty
  · cases data with
    | none => exact absurd rfl hempty
    | some data =>
      have hnull : data.elements ≠ .null := fun hnull => hempty (if_pos hnull)
      have hbytes : stringBytes (some data) = data.content.bytes := if_neg hnull
      rw [hbytes] at h hempty
      obtain ⟨idx, hloop⟩ :=
        loop_parseField [] h (Nat.le_refl _) {} rfl
      rw [foldl_record] at hloop
      refine ⟨(seenIn fields).has1 && (seenIn fields).has2 && (seenIn fields).has3 &&
        (seenIn fields).has4, lastFields fields, ?_, ?_, fun _ => rfl⟩
      · rw [parseWeeklyChallengeTopLevel, if_neg (by simp [hnull, hempty])]
        exact congrArg (Option.map _) hloop
      · simp [seenIn, Recognised, and_assoc]

/-- **The hook always answers, and recognises a string exactly when the complete fields that it
begins with, up to the first place where none follows, hold what a weekly challenge has; it then
gives the last lengths and the last value of these. `ReadVarint` reads back each encoded
number.** -/
theorem parseWeeklyChallengeTopLevel_spec (data : Option BlzString) (out : WeeklyFields)
    (before after : List UInt8) (n : BitVec 64) :
    (∃ fields rest ok result, Splits (stringBytes data) fields rest ∧
      parseWeeklyChallengeTopLevel data out = some (ok, result) ∧
        (ok = true ↔ Recognised fields) ∧ (ok = true → result = lastFields fields)) ∧
      readVarint (before ++ (encodeVarint n.toNat ++ after)) before.length =
        (true, before.length + (encodeVarint n.toNat).length, n) := by
  refine ⟨?_, ?_⟩
  · obtain ⟨fields, rest, hsplits⟩ := exists_splits (stringBytes data)
    obtain ⟨ok, result, hparse, hok, hresult⟩ := parse_of_splits data hsplits out
    exact ⟨fields, rest, ok, result, hsplits, hparse, hok, hresult⟩
  · rw [readVarint_append before after (isVarint_encodeVarint n.isLt), varintValue_encodeVarint,
      BitVec.ofNat_toNat, BitVec.setWidth_eq]

/-! ## Strings that are no message -/

/-- The fields of a weekly challenge, with the given number and bytes of the first. -/
def weeklyChallenge (number : ℕ) (payload : List UInt8) : List (ℕ × FieldValue) :=
  [(number, .bytes payload), (2, .bytes []), (3, .bytes []), (4, .varint 5)]

/-- A weekly challenge, and a field without its last byte. -/
def cutOffBytes : List UInt8 :=
  (weeklyChallenge 1 []).flatMap encodeField ++ (encodeField (1, .bytes [0, 0, 0, 0, 0])).dropLast

/-- A weekly challenge whose first number has a bit above its 32nd. -/
def wideNumber : List (ℕ × FieldValue) := weeklyChallenge (2 ^ 32 + 1) []

/-- A weekly challenge whose first field has 2³² bytes. -/
def longField : List (ℕ × FieldValue) := weeklyChallenge 1 (List.replicate (2 ^ 32) 0)

theorem fields_weeklyChallenge (number : ℕ) {payload : List UInt8} (hnumber : number < 2 ^ 61)
    (hpayload : payload.length < 2 ^ 64) :
    Fields ((weeklyChallenge number payload).flatMap encodeField)
      (weeklyChallenge number payload) := by
  refine fields_encodeField fun f hf => ?_
  simp only [weeklyChallenge, List.mem_cons, List.not_mem_nil, or_false] at hf
  rcases hf with rfl | rfl | rfl | rfl
  · exact ⟨hnumber, by rintro _ ⟨⟩; exact hpayload⟩
  · exact ⟨by decide, by rintro _ ⟨⟩; decide⟩
  · exact ⟨by decide, by rintro _ ⟨⟩; decide⟩
  · exact ⟨by decide, by rintro _ ⟨⟩⟩

theorem lengthsOf_weeklyChallenge {number : ℕ} (payload : List UInt8)
    (h : number % 2 ^ 32 = 1) :
    lengthsOf 1 (weeklyChallenge number payload) = [payload.length] :=
  List.filterMap_cons_some (if_pos h)

/-- The bytes of a weekly challenge, with what no field begins after them, are recognised. -/
theorem parse_weeklyChallenge (number : ℕ) {payload rest : List UInt8}
    (hnumber : number < 2 ^ 61) (h : number % 2 ^ 32 = 1) (hpayload : payload.length < 2 ^ 64)
    (hrest : NoField rest) : parseWeeklyChallengeTopLevel (some { content :=
      ⟨(weeklyChallenge number payload).flatMap encodeField ++ rest, .online⟩ }) {} =
        some (true, ⟨BitVec.ofNat 32 payload.length, 0, 0, 5⟩) := by
  have hlength := lengthsOf_weeklyChallenge payload h
  have hlengths : lengthsOf 2 (weeklyChallenge number payload) = [0] ∧
      lengthsOf 3 (weeklyChallenge number payload) = [0] := by
    constructor <;> exact List.filterMap_cons_none (if_neg (by omega))
  have hvalues : valuesOf 4 (weeklyChallenge number payload) = [5] := rfl
  obtain ⟨ok, result, hparse, hok, hresult⟩ := parse_of_splits (some { content :=
    ⟨(weeklyChallenge number payload).flatMap encodeField ++ rest, .online⟩ })
    ((fields_weeklyChallenge number hnumber hpayload).splits hrest) {}
  have hrecognised : ok = true :=
    hok.2 (by simp [Recognised, hlength, hlengths, hvalues])
  rw [hparse, hrecognised, hresult hrecognised, lastFields, hlength, hlengths.1, hlengths.2,
    hvalues]
  rfl

theorem noField_cutOff : NoField (encodeField (1, .bytes [0, 0, 0, 0, 0])).dropLast := by
  have hfield : IsField (encodeField (1, .bytes [0, 0, 0, 0, 0])) 1 (.bytes [0, 0, 0, 0, 0]) :=
    isField_encodeField ⟨by decide, by rintro _ ⟨⟩; decide⟩
  rw [← List.dropLast_concat_getLast (List.ne_nil_of_length_pos hfield.length_pos)] at hfield
  exact hfield.noField_of_append (List.cons_ne_nil _ _)

theorem cutOff_ne_nil : (encodeField (1, .bytes [0, 0, 0, 0, 0])).dropLast ≠ [] := by
  simp [encodeField, encodeVarint]

/-- **A string is recognised though a field at its end is cut off, or though a number has a bit
above its 32nd; and the lengths lose such bits.** -/
theorem not_parseWeeklyChallengeTopLevel_message :
    (parseWeeklyChallengeTopLevel (some { content := ⟨cutOffBytes, .online⟩ }) {} =
        some (true, ⟨0, 0, 0, 5⟩) ∧
      ∀ fields, ¬Fields cutOffBytes fields) ∧
    (parseWeeklyChallengeTopLevel
        (some { content := ⟨wideNumber.flatMap encodeField, .online⟩ }) {} =
          some (true, ⟨0, 0, 0, 5⟩) ∧
      ∀ fields, Fields (wideNumber.flatMap encodeField) fields → ∀ f ∈ fields, f.1 ≠ 1) ∧
    (parseWeeklyChallengeTopLevel
        (some { content := ⟨longField.flatMap encodeField, .online⟩ }) {} =
          some (true, ⟨0, 0, 0, 5⟩) ∧
      Fields (longField.flatMap encodeField) longField ∧ lengthsOf 1 longField = [2 ^ 32]) := by
  have hsmall : ([] : List UInt8).length < 2 ^ 64 := by decide
  have hlong : (List.replicate (2 ^ 32) (0 : UInt8)).length = 2 ^ 32 := List.length_replicate
  have hlt : (List.replicate (2 ^ 32) (0 : UInt8)).length < 2 ^ 64 := by rw [hlong]; decide
  refine ⟨⟨?_, fun fields hfields => ?_⟩, ⟨?_, fun fields hfields => ?_⟩, ⟨?_, ?_, ?_⟩⟩
  · exact parse_weeklyChallenge 1 (by decide) (by decide) hsmall noField_cutOff
  · have hsplits := (fields_weeklyChallenge 1 (by decide) hsmall).splits noField_cutOff
    have hwhole := hfields.splits noField_nil
    rw [List.append_nil] at hwhole
    exact cutOff_ne_nil (hsplits.unique hwhole).2
  · have h := parse_weeklyChallenge (2 ^ 32 + 1) (by decide) (by decide) hsmall
      noField_nil
    rwa [List.append_nil] at h
  · obtain rfl := hfields.unique (fields_weeklyChallenge _ (by decide) hsmall)
    simp [weeklyChallenge]
  · have h := parse_weeklyChallenge 1 (by decide) (by decide) hlt noField_nil
    rw [List.append_nil, hlong] at h
    exact h
  · exact fields_weeklyChallenge _ (by decide) hlt
  · exact (lengthsOf_weeklyChallenge _ rfl).trans (congrArg (fun n => [n]) hlong)

end D3Hack
