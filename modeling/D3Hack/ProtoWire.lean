import Mathlib.Data.List.Basic
import Mathlib.Algebra.Order.Group.Nat
import Mathlib.Algebra.Ring.Nat

/-!
# The protobuf wire format

A varint is at most ten bytes with seven bits each, the lowest first, all but the last with
their high bit set; `encodeVarint` gives the shortest one of a number. A field is a tag, which
holds its number and its wire type, and a value: a varint (wire type 0), or bytes after their
length (wire type 2). The other wire types are not modelled.

`Splits bs fields rest` cuts a string into the complete fields it begins with and a rest that no
field begins. Every string splits (`exists_splits`) in one way (`Splits.unique`), since no varint
begins another.
-/

namespace ProtoWire

/-! ## Varints -/

/-- All bytes but the last have their high bit set. -/
def Terminated : List UInt8 → Prop
  | [] => False
  | b :: bs => b.toNat < 128 ∧ bs = [] ∨ 128 ≤ b.toNat ∧ Terminated bs

/-- A number of the wire format, of ten bytes at most. -/
def IsVarint (bs : List UInt8) : Prop := Terminated bs ∧ bs.length ≤ 10

/-- The number of a varint, with the bits above the 64th. -/
def varintValue : List UInt8 → ℕ
  | [] => 0
  | b :: bs => b.toNat % 128 + 128 * varintValue bs

/-- The standard encoding of a number. -/
def encodeVarint (n : ℕ) : List UInt8 :=
  if n < 128 then [UInt8.ofNat n] else UInt8.ofNat (n % 128 + 128) :: encodeVarint (n / 128)
termination_by n

theorem Terminated.ne_nil {bs : List UInt8} (h : Terminated bs) : bs ≠ [] := by
  rintro rfl
  exact h

/-- No terminated string begins another. -/
theorem Terminated.unique {bs bs' rest rest' : List UInt8} (h : Terminated bs)
    (h' : Terminated bs') (heq : bs ++ rest = bs' ++ rest') : bs = bs' ∧ rest = rest' := by
  induction bs generalizing bs' with
  | nil => exact absurd h id
  | cons b bs ih =>
    cases bs' with
    | nil => exact absurd h' id
    | cons b' bs' =>
      obtain ⟨rfl, htail⟩ := List.cons_eq_cons.1 heq
      rcases h with ⟨hlow, rfl⟩ | ⟨hhigh, h⟩
      · rcases h' with ⟨-, rfl⟩ | ⟨hhigh', -⟩
        · exact ⟨rfl, htail⟩
        · omega
      · rcases h' with ⟨hlow', -⟩ | ⟨-, h'⟩
        · omega
        · obtain ⟨rfl, rfl⟩ := ih h h' htail
          exact ⟨rfl, rfl⟩

theorem IsVarint.length_pos {bs : List UInt8} (h : IsVarint bs) : 0 < bs.length :=
  List.length_pos_of_ne_nil h.1.ne_nil

theorem terminated_encodeVarint (n : ℕ) : Terminated (encodeVarint n) := by
  induction n using Nat.strong_induction_on with
  | _ n ih =>
    rw [encodeVarint]
    split_ifs with hlow
    · refine Or.inl ⟨?_, rfl⟩
      rw [UInt8.toNat_ofNat']
      omega
    · refine Or.inr ⟨?_, ih _ (by omega)⟩
      rw [UInt8.toNat_ofNat']
      omega

theorem length_encodeVarint {k n : ℕ} (hn : n < 128 ^ (k + 1)) :
    (encodeVarint n).length ≤ k + 1 := by
  induction k generalizing n with
  | zero =>
    rw [encodeVarint, if_pos (by omega)]
    exact Nat.le_refl 1
  | succ k ih =>
    rw [encodeVarint]
    split_ifs with hlow
    · simp
    · rw [List.length_cons]
      refine Nat.succ_le_succ (ih ((Nat.div_lt_iff_lt_mul (by omega)).2 ?_))
      rwa [← Nat.pow_succ]

theorem isVarint_encodeVarint {n : ℕ} (hn : n < 2 ^ 64) : IsVarint (encodeVarint n) :=
  ⟨terminated_encodeVarint n, length_encodeVarint (Nat.lt_of_lt_of_le hn (by decide))⟩

theorem varintValue_encodeVarint (n : ℕ) : varintValue (encodeVarint n) = n := by
  induction n using Nat.strong_induction_on with
  | _ n ih =>
    rw [encodeVarint]
    split_ifs with hlow
    · rw [varintValue, varintValue, UInt8.toNat_ofNat']
      omega
    · rw [varintValue, ih _ (by omega), UInt8.toNat_ofNat']
      omega

/-! ## Fields -/

/-- The value of a field, by its wire type. -/
inductive FieldValue where
  | varint (value : BitVec 64)
  | bytes (payload : List UInt8)
  deriving DecidableEq

/-- The value of a field after its tag, with the wire type of the tag. -/
def IsValue (wire : ℕ) (bs : List UInt8) : FieldValue → Prop
  | .varint value => wire = 0 ∧ IsVarint bs ∧ BitVec.ofNat 64 (varintValue bs) = value
  | .bytes payload => wire = 2 ∧ ∃ size, bs = size ++ payload ∧ IsVarint size ∧
      (BitVec.ofNat 64 (varintValue size)).toNat = payload.length

/-- A complete field: its number and wire type in a tag of 64 bits, then its value. -/
def IsField (bs : List UInt8) (number : ℕ) (value : FieldValue) : Prop :=
  ∃ tag body, bs = tag ++ body ∧ IsVarint tag ∧
    (BitVec.ofNat 64 (varintValue tag)).toNat / 8 = number ∧
      IsValue ((BitVec.ofNat 64 (varintValue tag)).toNat % 8) body value

/-- The string is the fields one after the other. -/
def Fields : List UInt8 → List (ℕ × FieldValue) → Prop
  | bs, [] => bs = []
  | bs, f :: fields => ∃ first rest, bs = first ++ rest ∧ IsField first f.1 f.2 ∧ Fields rest fields

/-- No field begins the string. -/
def NoField (bs : List UInt8) : Prop :=
  ∀ first rest number value, bs = first ++ rest → ¬IsField first number value

/-- The string is the fields, and a rest that no field begins. -/
def Splits : List UInt8 → List (ℕ × FieldValue) → List UInt8 → Prop
  | bs, [], rest => bs = rest ∧ NoField rest
  | bs, f :: fields, rest => ∃ first tail, bs = first ++ tail ∧ IsField first f.1 f.2 ∧
      Splits tail fields rest

theorem IsField.length_pos {bs : List UInt8} {number : ℕ} {value : FieldValue}
    (h : IsField bs number value) : 0 < bs.length := by
  obtain ⟨tag, body, rfl, htag, -⟩ := h
  have hpos := htag.length_pos
  rw [List.length_append]
  omega

theorem noField_nil : NoField [] := by
  intro first rest number value heq h
  obtain ⟨rfl, -⟩ := List.append_eq_nil_iff.1 heq.symm
  exact absurd h.length_pos (Nat.lt_irrefl 0)

/-- Every string splits. -/
theorem exists_splits (bs : List UInt8) : ∃ fields rest, Splits bs fields rest := by
  induction hn : bs.length using Nat.strong_induction_on generalizing bs with
  | _ n ih =>
    by_cases hfield : NoField bs
    · exact ⟨[], bs, rfl, hfield⟩
    · simp only [NoField, not_forall, not_not] at hfield
      obtain ⟨first, tail, number, value, rfl, hfirst⟩ := hfield
      have hpos := hfirst.length_pos
      rw [List.length_append] at hn
      obtain ⟨fields, rest, hsplits⟩ := ih tail.length (by omega) tail rfl
      exact ⟨(number, value) :: fields, rest, first, tail, rfl, hfirst, hsplits⟩

/-- The fields come first where no field begins the rest. -/
theorem Fields.splits {bs rest : List UInt8} {fields : List (ℕ × FieldValue)}
    (h : Fields bs fields) (hrest : NoField rest) : Splits (bs ++ rest) fields rest := by
  induction fields generalizing bs with
  | nil =>
    obtain rfl := h
    exact ⟨rfl, hrest⟩
  | cons f fields ih =>
    obtain ⟨first, tail, rfl, hfirst, htail⟩ := h
    exact ⟨first, tail ++ rest, List.append_assoc first tail rest, hfirst, ih htail⟩

/-- No value of a wire type begins another. -/
theorem IsValue.unique {wire : ℕ} {bs bs' rest rest' : List UInt8} {value value' : FieldValue}
    (h : IsValue wire bs value) (h' : IsValue wire bs' value') (heq : bs ++ rest = bs' ++ rest') :
    value = value' ∧ rest = rest' := by
  cases value with
  | varint v =>
    obtain ⟨rfl, hbs, rfl⟩ := h
    cases value' with
    | varint v' =>
      obtain ⟨-, hbs', rfl⟩ := h'
      obtain ⟨rfl, rfl⟩ := hbs.1.unique hbs'.1 heq
      exact ⟨rfl, rfl⟩
    | bytes p' => exact absurd h'.1 (by omega)
  | bytes p =>
    obtain ⟨rfl, size, rfl, hsize, hlength⟩ := h
    cases value' with
    | varint v' => exact absurd h'.1 (by omega)
    | bytes p' =>
      obtain ⟨-, size', rfl, hsize', hlength'⟩ := h'
      rw [List.append_assoc, List.append_assoc] at heq
      obtain ⟨rfl, htail⟩ := hsize.1.unique hsize'.1 heq
      obtain ⟨rfl, rfl⟩ := List.append_inj htail (hlength.symm.trans hlength')
      exact ⟨rfl, rfl⟩

theorem IsField.unique {bs bs' rest rest' : List UInt8} {number number' : ℕ}
    {value value' : FieldValue} (h : IsField bs number value) (h' : IsField bs' number' value')
    (heq : bs ++ rest = bs' ++ rest') : number = number' ∧ value = value' ∧ rest = rest' := by
  obtain ⟨tag, body, rfl, htag, rfl, hvalue⟩ := h
  obtain ⟨tag', body', rfl, htag', rfl, hvalue'⟩ := h'
  rw [List.append_assoc, List.append_assoc] at heq
  obtain ⟨rfl, hbody⟩ := htag.1.unique htag'.1 heq
  obtain ⟨rfl, rfl⟩ := hvalue.unique hvalue' hbody
  exact ⟨rfl, rfl, rfl⟩

/-- A field that is cut off is none. -/
theorem IsField.noField_of_append {bs tail : List UInt8} {number : ℕ} {value : FieldValue}
    (h : IsField (bs ++ tail) number value) (htail : tail ≠ []) : NoField bs := by
  rintro first rest number' value' rfl hfirst
  rw [List.append_assoc] at h
  have heq : first ++ (rest ++ tail) = first ++ (rest ++ tail) ++ [] := (List.append_nil _).symm
  obtain ⟨-, -, hrest⟩ := hfirst.unique h heq
  exact htail (List.append_eq_nil_iff.1 hrest).2

/-- A string splits in one way. -/
theorem Splits.unique {bs rest rest' : List UInt8} {fields fields' : List (ℕ × FieldValue)}
    (h : Splits bs fields rest) (h' : Splits bs fields' rest') :
    fields = fields' ∧ rest = rest' := by
  induction fields generalizing bs fields' with
  | nil =>
    obtain ⟨rfl, hnone⟩ := h
    cases fields' with
    | nil => exact ⟨rfl, h'.1⟩
    | cons f' fields' =>
      obtain ⟨first, tail, heq, hfirst, -⟩ := h'
      exact absurd hfirst (hnone first tail _ _ heq)
  | cons f fields ih =>
    obtain ⟨first, tail, rfl, hfirst, htail⟩ := h
    cases fields' with
    | nil =>
      obtain ⟨rfl, hnone⟩ := h'
      exact absurd hfirst (hnone first tail _ _ rfl)
    | cons f' fields' =>
      obtain ⟨first', tail', heq, hfirst', htail'⟩ := h'
      obtain ⟨hnumber, hvalue, rfl⟩ := hfirst.unique hfirst' heq
      obtain ⟨rfl, rfl⟩ := ih htail htail'
      exact ⟨by rw [Prod.ext hnumber hvalue], rfl⟩

theorem Fields.unique {bs : List UInt8} {fields fields' : List (ℕ × FieldValue)}
    (h : Fields bs fields) (h' : Fields bs fields') : fields = fields' :=
  ((h.splits noField_nil).unique (h'.splits noField_nil)).1

/-! ## Encoding fields -/

/-- The standard encoding of a field. -/
def encodeField : ℕ × FieldValue → List UInt8
  | (number, .varint value) => encodeVarint (number * 8) ++ encodeVarint value.toNat
  | (number, .bytes payload) =>
    encodeVarint (number * 8 + 2) ++ (encodeVarint payload.length ++ payload)

/-- The number of the field fits its tag, and the length of its bytes is a number of 64 bits. -/
def Encodable (f : ℕ × FieldValue) : Prop :=
  f.1 < 2 ^ 61 ∧ ∀ payload, f.2 = .bytes payload → payload.length < 2 ^ 64

theorem toNat_varintValue_encodeVarint {n : ℕ} (hn : n < 2 ^ 64) :
    (BitVec.ofNat 64 (varintValue (encodeVarint n))).toNat = n := by
  rw [varintValue_encodeVarint, BitVec.toNat_ofNat, Nat.mod_eq_of_lt hn]

theorem isField_encodeField {f : ℕ × FieldValue} (h : Encodable f) :
    IsField (encodeField f) f.1 f.2 := by
  obtain ⟨number, value⟩ := f
  obtain ⟨hnumber, hlength⟩ := h
  dsimp only at hnumber
  cases value with
  | varint value =>
    have htag := toNat_varintValue_encodeVarint (by omega : number * 8 < 2 ^ 64)
    refine ⟨_, _, rfl, isVarint_encodeVarint (by omega), ?_, ?_, ?_⟩
    · rw [htag]
      exact Nat.mul_div_cancel number (by omega)
    · rw [htag]
      exact Nat.mul_mod_left number 8
    · refine ⟨isVarint_encodeVarint value.isLt, ?_⟩
      rw [varintValue_encodeVarint, BitVec.ofNat_toNat, BitVec.setWidth_eq]
  | bytes payload =>
    have hsize := hlength payload rfl
    have htag := toNat_varintValue_encodeVarint (by omega : number * 8 + 2 < 2 ^ 64)
    refine ⟨_, _, rfl, isVarint_encodeVarint (by omega), ?_, ?_, encodeVarint payload.length,
      rfl, isVarint_encodeVarint hsize, toNat_varintValue_encodeVarint hsize⟩
    · rw [htag]
      dsimp only
      omega
    · rw [htag]
      omega

/-- Fields are read back from their encodings. -/
theorem fields_encodeField {fields : List (ℕ × FieldValue)} (h : ∀ f ∈ fields, Encodable f) :
    Fields (fields.flatMap encodeField) fields := by
  induction fields with
  | nil => rfl
  | cons f fields ih =>
    refine ⟨encodeField f, fields.flatMap encodeField, List.flatMap_cons, ?_, ?_⟩
    · exact isField_encodeField (h f List.mem_cons_self)
    · exact ih fun g hg => h g (List.mem_cons_of_mem f hg)

end ProtoWire
