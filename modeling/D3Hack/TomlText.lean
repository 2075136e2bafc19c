import D3Hack.Toml
import Mathlib.Tactic.FieldSimp
import Mathlib.Tactic.LinearCombination

/-!
# The text of a table

`print` writes a table in the usual form: first its own entries, one a line, then each table in it
behind a header with its path. `parse` reads such a text line by line, and puts each entry into the
table of the last header.

`parse_print` is the round trip: a table with plain keys in order, strings without quotes and
numbers with few decimals (`printableEntries`) is what its text is read as. The values are read
back first (`parseValue_valueText`), then the lines (`parseLine_text`), then the tables
(`root_readTable`, `fill_nil`).
-/

namespace Toml

/-! ## Characters -/

/-- The bytes of a text. -/
def encode (text : List Char) : List UInt8 := text.flatMap String.utf8EncodeChar

/-- The text of bytes, if they are one. -/
def decode (bytes : List UInt8) : Option (List Char) :=
  (ByteArray.utf8Decode? bytes.toByteArray).map Array.toList

theorem decode_encode (text : List Char) : decode (encode text) = some text := by
  have hbytes : (encode text).toByteArray = text.utf8Encode := rfl
  rw [decode, hbytes, List.utf8Decode?_utf8Encode, Option.map_some, List.toList_toArray]

theorem flatten_map_encode (texts : List (List Char)) :
    (texts.map encode).flatten = encode texts.flatten := by
  rw [encode, List.flatMap_def, List.map_flatten, List.flatten_flatten, List.map_map]
  rfl

/-- The apostrophe, around strings that stand for themselves. -/
def quote : Char := Char.ofNat 0x27

/-- The characters of a key without quotes. -/
def isBare (c : Char) : Bool := c.isAlphanum || c == '_' || c == '-'

/-! ## Values -/

/-- The digits of a number, with zeros before them up to a length. -/
def digits (k n : ℕ) : List Char :=
  List.replicate (k - (Nat.toDigits 10 n).length) '0' ++ Nat.toDigits 10 n

/-- The decimals that a number needs, from one to seventeen. -/
def decimals (q : ℚ) : ℕ :=
  ((List.range 16).find? fun k => (q * 10 ^ (k + 1)).den = 1).elim 17 (· + 1)

/-- The text of a number that is not negative. -/
def fractionText (q : ℚ) : List Char :=
  let k := decimals q
  let n := (q * 10 ^ k).num.toNat
  digits 1 (n / 10 ^ k) ++ '.' :: digits k (n % 10 ^ k)

/-- The text of a value; tables have lines of their own. -/
def valueText : Node → List Char
  | .string s => quote :: s.toList ++ [quote]
  | .integer i => if i < 0 then '-' :: digits 1 i.natAbs else digits 1 i.natAbs
  | .float (.fin q) => if q < 0 then '-' :: fractionText (-q) else fractionText q
  | .float .nan => ['n', 'a', 'n']
  | .float .posInf => ['i', 'n', 'f']
  | .float .negInf => ['-', 'i', 'n', 'f']
  | .boolean true => ['t', 'r', 'u', 'e']
  | .boolean false => ['f', 'a', 'l', 's', 'e']
  | .table _ => []
  | .other => ['[', ']']

/-- A number without a sign. -/
def parseNat (text : List Char) : Option ℕ :=
  if text ≠ [] ∧ text.all Char.isDigit then some (Nat.ofDigitChars 10 text 0) else none

/-- A number without a sign, with decimals or without. -/
def parseNumber (text : List Char) : Option Node :=
  match text.span Char.isDigit with
  | (whole, []) => (parseNat whole).map fun n => .integer n
  | (whole, '.' :: frac) => do
    let n ← parseNat whole
    let m ← parseNat frac
    pure (.float (.fin (n + m / 10 ^ frac.length)))
  | _ => none

/-- The value with the other sign. -/
def Node.neg : Node → Node
  | .integer i => .integer (-i)
  | .float (.fin q) => .float (.fin (-q))
  | .float .posInf => .float .negInf
  | v => v

/-- The values that are words. -/
def keywords : List (List Char × Node) :=
  [(['t', 'r', 'u', 'e'], .boolean true), (['f', 'a', 'l', 's', 'e'], .boolean false),
    (['n', 'a', 'n'], .float .nan), (['i', 'n', 'f'], .float .posInf),
    (['-', 'i', 'n', 'f'], .float .negInf)]

/-- A value. -/
def parseValue : List Char → Option Node
  | [] => none
  | c :: rest =>
    if c = quote then
      match rest.span (· ≠ quote) with
      | (s, [_]) => some (.string (String.ofList s))
      | _ => none
    else if c.isDigit then parseNumber (c :: rest)
    else if c = '-' ∧ (rest.head?.map Char.isDigit) = some true then
      (parseNumber rest).map Node.neg
    else keywords.lookup (c :: rest)

/-- A value that its text is read as. -/
def Node.plain : Node → Bool
  | .string s => s.toList.all (· ≠ quote) && s.toList.all (· ≠ '\n')
  | .float (.fin q) => (q * 10 ^ decimals q).den = 1
  | .table _ => false
  | .other => false
  | _ => true

/-! ### Numbers -/

theorem all_isDigit_digits (k n : ℕ) : ∀ c ∈ digits k n, c.isDigit = true := by
  intro c hc
  rcases List.mem_append.1 hc with hc | hc
  · rw [List.eq_of_mem_replicate hc]
    rfl
  · exact Nat.isDigit_of_mem_toDigits (by decide) (by decide) hc

theorem digits_ne_nil (k n : ℕ) : digits k n ≠ [] :=
  List.append_ne_nil_of_right_ne_nil _ Nat.toDigits_ne_nil

theorem parseNat_digits (k n : ℕ) : parseNat (digits k n) = some n := by
  have hvalue : Nat.ofDigitChars 10 (digits k n) 0 = n := by
    rw [digits, Nat.ofDigitChars_append, Nat.ofDigitChars_replicate_zero, Nat.mul_zero,
      Nat.ofDigitChars_ten_toDigits]
  rw [parseNat, if_pos ⟨digits_ne_nil k n, List.all_eq_true.2 (all_isDigit_digits k n)⟩, hvalue]

theorem length_digits {k n : ℕ} (hk : 0 < k) (h : n < 10 ^ k) : (digits k n).length = k := by
  have hlen := (Nat.length_toDigits_le_iff (by decide : 1 < 10) hk).2 h
  rw [digits, List.length_append, List.length_replicate]
  omega

/-- The digits before something else. -/
theorem span_digits (k n : ℕ) (text : List Char) (h : ∀ c ∈ text.head?, c.isDigit = false) :
    (digits k n ++ text).span Char.isDigit = (digits k n, text) := by
  rw [List.span_eq_takeWhile_dropWhile, List.takeWhile_append_of_pos (all_isDigit_digits k n),
    List.dropWhile_append_of_pos (all_isDigit_digits k n)]
  cases text with
  | nil => simp
  | cons c text =>
    have hc := h c rfl
    simp [hc]

theorem parseNumber_digits (n : ℕ) : parseNumber (digits 1 n) = some (.integer n) := by
  have hspan := span_digits 1 n [] (by simp)
  rw [List.append_nil] at hspan
  rw [parseNumber, hspan]
  dsimp only
  rw [parseNat_digits]
  rfl

theorem decimals_pos (q : ℚ) : 0 < decimals q := by
  unfold decimals
  cases (List.range 16).find? _ <;> exact Nat.succ_pos _

theorem decimals_neg (q : ℚ) : decimals (-q) = decimals q := by
  unfold decimals
  simp only [neg_mul, Rat.neg_den]

/-- A number with few decimals is read back. -/
theorem parseNumber_fractionText {q : ℚ} (hq : 0 ≤ q) (hden : (q * 10 ^ decimals q).den = 1) :
    parseNumber (fractionText q) = some (.float (.fin q)) := by
  have hk := decimals_pos q
  generalize hdec : decimals q = k at hden hk
  have hnum : (q * 10 ^ k).num.toNat = q * 10 ^ k := by
    have hpos : 0 ≤ (q * 10 ^ k).num := Rat.num_nonneg.2 (by positivity)
    conv_rhs => rw [← Rat.num_div_den (q * 10 ^ k), hden]
    rw [Nat.cast_one, div_one, ← Int.cast_natCast, Int.toNat_of_nonneg hpos]
  generalize hn : (q * 10 ^ k).num.toNat = n at hnum
  have hmod : n % 10 ^ k < 10 ^ k := Nat.mod_lt n (by positivity)
  have htext : fractionText q = digits 1 (n / 10 ^ k) ++ '.' :: digits k (n % 10 ^ k) := by
    rw [fractionText, hdec, hn]
  have hvalue : ((n / 10 ^ k : ℕ) : ℚ) + (n % 10 ^ k : ℕ) / 10 ^ k = q := by
    have hsplit : ((10 ^ k * (n / 10 ^ k) + n % 10 ^ k : ℕ) : ℚ) = n := by
      rw [Nat.div_add_mod]
    push_cast at hsplit
    have hpow : (10 : ℚ) ^ k ≠ 0 := by positivity
    field_simp
    linear_combination hsplit + hnum
  have hspan := span_digits 1 (n / 10 ^ k) ('.' :: digits k (n % 10 ^ k)) (by simp)
  rw [htext, parseNumber, hspan]
  simp only [parseNat_digits, length_digits hk hmod, Option.bind_eq_bind, Option.bind_some,
    Option.pure_def, hvalue]

/-! ### All values -/

/-- A text that starts with a digit. -/
def NumberLike (text : List Char) : Prop := text.head?.map Char.isDigit = some true

theorem numberLike_digits (k n : ℕ) (text : List Char) : NumberLike (digits k n ++ text) := by
  cases h : digits k n with
  | nil => exact absurd h (digits_ne_nil k n)
  | cons c rest =>
    have hc := all_isDigit_digits k n c (by rw [h]; exact List.mem_cons_self)
    simp [NumberLike, hc]

theorem numberLike_fractionText (q : ℚ) : NumberLike (fractionText q) := numberLike_digits _ _ _

theorem isDigit_ne {c d : Char} (hc : c.isDigit = true) (hd : d.isDigit = false) : c ≠ d := by
  rintro rfl
  rw [hc] at hd
  cases hd

theorem parseValue_of_numberLike {text : List Char} (h : NumberLike text) :
    parseValue text = parseNumber text := by
  cases text with
  | nil => cases h
  | cons c rest =>
    have hc : c.isDigit = true := by simpa [NumberLike] using h
    rw [parseValue, if_neg (isDigit_ne hc (by decide)), if_pos hc]

theorem parseValue_neg {text : List Char} (h : NumberLike text) :
    parseValue ('-' :: text) = (parseNumber text).map Node.neg := by
  rw [parseValue, if_neg (by decide), if_neg (by decide), if_pos ⟨rfl, h⟩]

/-- The text up to a character that does not occur in it. -/
theorem span_ne {c : Char} {text : List Char} (h : text.all (· ≠ c) = true) (rest : List Char) :
    (text ++ c :: rest).span (· ≠ c) = (text, c :: rest) := by
  rw [List.span_eq_takeWhile_dropWhile, List.takeWhile_append_of_pos (List.all_eq_true.1 h),
    List.dropWhile_append_of_pos (List.all_eq_true.1 h)]
  simp

/-- **A plain value is what its text is read as.** -/
theorem parseValue_valueText {v : Node} (h : v.plain = true) :
    parseValue (valueText v) = some v := by
  cases v with
  | string s =>
    have hs := span_ne (Bool.and_eq_true_iff.1 h).1 []
    rw [valueText, List.cons_append, parseValue, if_pos rfl, hs]
    simp
  | integer i =>
    have hdigits := numberLike_digits 1 i.natAbs []
    rw [List.append_nil] at hdigits
    rw [valueText]
    split
    · rw [parseValue_neg hdigits, parseNumber_digits]
      simp only [Option.map_some, Node.neg, Option.some.injEq, Node.integer.injEq]
      omega
    · rw [parseValue_of_numberLike hdigits, parseNumber_digits]
      simp only [Option.some.injEq, Node.integer.injEq]
      omega
  | float x =>
    cases x with
    | fin q =>
      have hden : (q * 10 ^ decimals q).den = 1 := of_decide_eq_true h
      rw [valueText]
      split
      · next hneg =>
        have hden' : (-q * 10 ^ decimals (-q)).den = 1 := by
          rwa [decimals_neg, neg_mul, Rat.neg_den]
        rw [parseValue_neg (numberLike_fractionText _),
          parseNumber_fractionText (by linarith) hden', Option.map_some, Node.neg, neg_neg]
      · next hpos =>
        rw [parseValue_of_numberLike (numberLike_fractionText _),
          parseNumber_fractionText (not_lt.1 hpos) hden]
    | nan => rfl
    | posInf => rfl
    | negInf => rfl
  | boolean b => cases b <;> rfl
  | table t => cases h
  | other => cases h

theorem not_mem_fractionText (q : ℚ) : '\n' ∉ fractionText q := by
  intro hmem
  rcases List.mem_append.1 hmem with hmem | hmem
  · exact isDigit_ne (all_isDigit_digits _ _ _ hmem) (by decide) rfl
  · rcases List.mem_cons.1 hmem with h | hmem
    · exact absurd h (by decide)
    · exact isDigit_ne (all_isDigit_digits _ _ _ hmem) (by decide) rfl

/-- A plain value is written in one line. -/
theorem not_mem_valueText {v : Node} (h : v.plain = true) : '\n' ∉ valueText v := by
  have hdigits : ∀ n, '\n' ∉ digits 1 n := fun n hmem =>
    isDigit_ne (all_isDigit_digits _ _ _ hmem) (by decide) rfl
  cases v with
  | string s =>
    have hs : '\n' ∉ s.toList := fun hmem =>
      of_decide_eq_true (List.all_eq_true.1 (Bool.and_eq_true_iff.1 h).2 _ hmem) rfl
    have hquote : '\n' ≠ quote := by decide
    simp [valueText, hs, hquote]
  | integer i =>
    rw [valueText]
    split
    · exact List.not_mem_cons_of_ne_of_not_mem (by decide) (hdigits _)
    · exact hdigits _
  | float x =>
    cases x with
    | fin q =>
      rw [valueText]
      split
      · exact List.not_mem_cons_of_ne_of_not_mem (by decide) (not_mem_fractionText _)
      · exact not_mem_fractionText q
    | nan => decide
    | posInf => decide
    | negInf => decide
  | boolean b => cases b <;> decide
  | table t => cases h
  | other => cases h

/-! ## Lines -/

/-- A line: blank, the path of a table, or an entry of the table of the last path. -/
inductive Line where
  | blank
  | header (path : List String)
  | entry (key : String) (value : Node)

/-- A key without quotes. -/
def bareKey (key : String) : Bool := key ≠ "" && key.toList.all isBare

namespace Line

/-- The text of a line, without the spaces before it. -/
def text : Line → List Char
  | blank => []
  | header path => '[' :: (['.'].intercalate (path.map String.toList) ++ [']'])
  | entry key value => key.toList ++ ' ' :: '=' :: ' ' :: valueText value

/-- A line that its text is read as. -/
def plain : Line → Bool
  | blank => true
  | header path => !path.isEmpty && path.all bareKey
  | entry key value => bareKey key && value.plain

end Line

/-- A line with a path, from behind its bracket. -/
def parseHeader (text : List Char) : Option Line :=
  match text.span (· ≠ ']') with
  | (path, [_]) => some (.header ((path.splitOn '.').map String.ofList))
  | _ => none

/-- A line with an entry. -/
def parseEntry (text : List Char) : Option Line :=
  match text.span isBare with
  | (key, ' ' :: '=' :: ' ' :: value) => (parseValue value).map (.entry (String.ofList key))
  | _ => none

/-- A line, with spaces before it. -/
def parseLine (text : List Char) : Option Line :=
  match text.dropWhile (· = ' ') with
  | [] => some .blank
  | c :: rest =>
    if c = '#' then some .blank
    else if c = '[' then parseHeader rest
    else parseEntry (c :: rest)

theorem isBare_ne {c d : Char} (hc : isBare c = true) (hd : isBare d = false) : c ≠ d := by
  rintro rfl
  rw [hc] at hd
  cases hd

/-- The characters of a key without quotes, the first of them apart. -/
theorem exists_cons_of_bareKey {key : String} (h : bareKey key = true) :
    ∃ c rest, key.toList = c :: rest ∧ ∀ d ∈ c :: rest, isBare d = true := by
  obtain ⟨hne, hall⟩ := Bool.and_eq_true_iff.1 h
  cases hkey : key.toList with
  | nil => exact absurd (String.toList_eq_nil_iff.1 hkey) (of_decide_eq_true hne)
  | cons c rest => exact ⟨c, rest, rfl, hkey ▸ List.all_eq_true.1 hall⟩

theorem dropWhile_spaces (n : ℕ) {c : Char} (hc : c ≠ ' ') (rest : List Char) :
    (List.replicate n ' ' ++ c :: rest).dropWhile (· = ' ') = c :: rest := by
  rw [List.dropWhile_append_of_pos (by simp)]
  simp [hc]

theorem mem_intercalate {c d : Char} {texts : List (List Char)} (h : c ∈ [d].intercalate texts) :
    c = d ∨ ∃ text ∈ texts, c ∈ text := by
  induction texts with
  | nil => cases h
  | cons text texts ih =>
    cases texts with
    | nil =>
      rw [List.intercalate_singleton] at h
      exact Or.inr ⟨text, List.mem_cons_self, h⟩
    | cons text' texts =>
      rw [List.intercalate_cons_cons, List.append_assoc] at h
      rcases List.mem_append.1 h with h | h
      · exact Or.inr ⟨text, List.mem_cons_self, h⟩
      · rcases List.mem_cons.1 h with h | h
        · exact Or.inl h
        · rcases ih h with h | ⟨t, ht, hc⟩
          · exact Or.inl h
          · exact Or.inr ⟨t, List.mem_cons_of_mem text ht, hc⟩

/-- The path of a header is made of keys and dots. -/
theorem ne_of_mem_path {path : List String} (h : path.all bareKey = true) {c d : Char}
    (hc : c ∈ ['.'].intercalate (path.map String.toList)) (hdot : d ≠ '.') (hd : isBare d = false) :
    c ≠ d := by
  rcases mem_intercalate hc with rfl | ⟨text, htext, hc⟩
  · exact hdot.symm
  · obtain ⟨key, hkey, rfl⟩ := List.mem_map.1 htext
    have hbare := (Bool.and_eq_true_iff.1 (List.all_eq_true.1 h key hkey)).2
    exact isBare_ne (List.all_eq_true.1 hbare c hc) hd

theorem parseHeader_intercalate {path : List String} (hne : path ≠ [])
    (h : path.all bareKey = true) :
    parseHeader (['.'].intercalate (path.map String.toList) ++ [']']) = some (.header path) := by
  have hclose : (['.'].intercalate (path.map String.toList)).all (· ≠ ']') = true :=
    List.all_eq_true.2 fun c hc => decide_eq_true (ne_of_mem_path h hc (by decide) (by decide))
  have hkeys : ∀ text ∈ path.map String.toList, '.' ∉ text := by
    intro text htext hdot
    obtain ⟨key, hkey, rfl⟩ := List.mem_map.1 htext
    have hbare := (Bool.and_eq_true_iff.1 (List.all_eq_true.1 h key hkey)).2
    exact isBare_ne (List.all_eq_true.1 hbare _ hdot) (by decide) rfl
  rw [parseHeader, span_ne hclose []]
  dsimp only
  rw [List.splitOn_intercalate '.' hkeys (by simpa using hne), List.map_map]
  simp

theorem parseEntry_text {key : String} {value : Node} (hkey : bareKey key = true)
    (hvalue : value.plain = true) :
    parseEntry (key.toList ++ ' ' :: '=' :: ' ' :: valueText value) = some (.entry key value) := by
  have hbare := List.all_eq_true.1 (Bool.and_eq_true_iff.1 hkey).2
  have hspan : (key.toList ++ ' ' :: '=' :: ' ' :: valueText value).span isBare =
      (key.toList, ' ' :: '=' :: ' ' :: valueText value) := by
    rw [List.span_eq_takeWhile_dropWhile, List.takeWhile_append_of_pos hbare,
      List.dropWhile_append_of_pos hbare]
    simp [isBare]
  rw [parseEntry, hspan]
  change (parseValue (valueText value)).map (Line.entry (String.ofList key.toList)) = _
  rw [parseValue_valueText hvalue, Option.map_some, String.ofList_toList]

/-- **A line is what its text is read as**, with any spaces before it. -/
theorem parseLine_text (n : ℕ) {line : Line} (h : line.plain = true) :
    parseLine (List.replicate n ' ' ++ line.text) = some line := by
  cases line with
  | blank =>
    have hspaces : (List.replicate n ' ').dropWhile (· = ' ') = [] := by simp
    rw [parseLine, Line.text, List.append_nil, hspaces]
  | header path =>
    obtain ⟨hne, hall⟩ := Bool.and_eq_true_iff.1 h
    rw [parseLine, Line.text, dropWhile_spaces n (by decide)]
    dsimp only
    rw [if_neg (by decide), if_pos rfl]
    exact parseHeader_intercalate (by simpa using hne) hall
  | entry key value =>
    obtain ⟨hkey, hvalue⟩ := Bool.and_eq_true_iff.1 h
    obtain ⟨c, rest, htext, hbare⟩ := exists_cons_of_bareKey hkey
    have hc := hbare c List.mem_cons_self
    have hentry := parseEntry_text hkey hvalue
    rw [htext, List.cons_append] at hentry
    rw [parseLine, Line.text, htext, List.cons_append,
      dropWhile_spaces n (isBare_ne hc (by decide))]
    dsimp only
    rw [if_neg (isBare_ne hc (by decide)), if_neg (isBare_ne hc (by decide)), hentry]

/-- A plain line is one line. -/
theorem not_mem_text {line : Line} (h : line.plain = true) : '\n' ∉ line.text := by
  cases line with
  | blank => exact List.not_mem_nil
  | header path =>
    intro hmem
    rcases List.mem_cons.1 hmem with hc | hmem
    · exact absurd hc (by decide)
    · rcases List.mem_append.1 hmem with hmem | hmem
      · exact ne_of_mem_path (Bool.and_eq_true_iff.1 h).2 hmem (by decide) (by decide) rfl
      · exact absurd (List.mem_singleton.1 hmem) (by decide)
  | entry key value =>
    obtain ⟨hkey, hvalue⟩ := Bool.and_eq_true_iff.1 h
    have hbare := List.all_eq_true.1 (Bool.and_eq_true_iff.1 hkey).2
    intro hmem
    rcases List.mem_append.1 hmem with hmem | hmem
    · exact isBare_ne (hbare _ hmem) (by decide) rfl
    · simp [not_mem_valueText hvalue] at hmem

/-! ## Tables -/

/-- A table whose keys are in order. -/
def Table.Sorted (t : Table) : Prop := t.Pairwise fun e e' => e.1 < e'.1

/-- A node with a change of its table, if it is one. -/
def Node.onTable (f : Table → Table) : Node → Node
  | .table t => .table (f t)
  | v => v

/-- The table at a path changed, with the tables on the way created if they are not there. -/
def updateAt (f : Table → Table) : List String → Table → Table
  | [], t => f t
  | key :: path, t => (ensure t key).modify key (Node.onTable (updateAt f path))

/-- The node is a table. -/
def Node.isTable : Node → Bool
  | .table _ => true
  | _ => false

/-- The entries of a table that are not tables. -/
def Table.values (t : Table) : Table := t.filter fun e => !e.2.isTable

/-- The lines of the entries of a table, and the spaces before each. -/
def Table.entryLines (n : ℕ) (t : Table) : List (ℕ × Line) :=
  t.values.map fun e => (n, .entry e.1 e.2)

mutual

/-- The lines of a table at a path: a header and its entries, and its tables. -/
def Node.lines (path : List String) : Node → List (ℕ × Line)
  | .table t =>
    let n := 4 * (path.length - 1)
    (0, .blank) :: (n, .header path) :: (Table.entryLines n t ++ tableLines path t)
  | _ => []

/-- The lines of the tables in a table. -/
def tableLines (path : List String) : List (String × Node) → List (ℕ × Line)
  | [] => []
  | (key, node) :: t => Node.lines (path ++ [key]) node ++ tableLines path t

end

/-- The lines of a whole text; it does not start with a blank line. -/
def Table.lines (t : Table) : List (ℕ × Line) :=
  match Table.entryLines 0 t ++ tableLines [] t with
  | (_, .blank) :: lines => lines
  | lines => lines

/-- A printed line. -/
def lineText (p : ℕ × Line) : List Char := List.replicate p.1 ' ' ++ p.2.text

/-- A table printed, in pieces. -/
def print (t : Table) : List (List UInt8) :=
  ((t.lines.map lineText).intersperse ['\n']).map encode

/-- What is read so far, and the path of the last header. -/
structure Reader where
  root : Table := []
  path : List String := []

/-- A line read. -/
def Reader.read (r : Reader) : Line → Reader
  | .blank => r
  | .header path => ⟨updateAt id path r.root, path⟩
  | .entry key value => { r with root := updateAt (fun t => t.insert key value) r.path r.root }

/-- Lines read, the first of them with a number. -/
def readLines (n : ℕ) (r : Reader) : List (List Char) → Except ParseError Table
  | [] => .ok r.root
  | text :: texts =>
    match parseLine text with
    | some line => readLines (n + 1) (r.read line) texts
    | none => .error ⟨"Error while parsing line", some (n, 1)⟩

/-- A text read. -/
def parse (bytes : List UInt8) : Except ParseError Table :=
  match decode bytes with
  | some text => readLines 1 {} (text.splitOn '\n')
  | none => .error ⟨"Error while reading the text", none⟩

/-! ### Changes at a path -/

theorem modify_modify (t : Table) (key : String) (f g : Node → Node) :
    (t.modify key f).modify key g = t.modify key (g ∘ f) := by
  rw [Table.modify, Table.modify, Table.modify, List.map_map]
  refine List.map_congr_left fun e _ => ?_
  by_cases h : e.1 = key <;> simp [h]

theorem onTable_onTable (f g : Table → Table) (v : Node) :
    (v.onTable f).onTable g = v.onTable (g ∘ f) := by
  cases v <;> rfl

theorem ensure_of_isSome {t : Table} {key : String} (h : (t.get key).isSome = true) :
    ensure t key = t := by
  unfold ensure Table.insert
  rw [if_pos h]
  cases subtable t key <;> rfl

theorem isSome_get_ensure (t : Table) (key : String) : ((ensure t key).get key).isSome = true := by
  cases h : t.get key with
  | none =>
    have hsub : subtable t key = none := by rw [subtable, h]
    rw [ensure, hsub]
    dsimp only
    rw [Table.get_insert, if_pos rfl]
    rfl
  | some v =>
    have hsome : (t.get key).isSome = true := by rw [h]; rfl
    rw [ensure_of_isSome hsome, hsome]

/-- A key is still there after a change of its node. -/
theorem ensure_modify_ensure (t : Table) (key : String) (f : Node → Node) :
    ensure ((ensure t key).modify key f) key = (ensure t key).modify key f := by
  refine ensure_of_isSome ?_
  rw [Table.get_modify, if_pos rfl, Option.isSome_map, isSome_get_ensure]

theorem updateAt_updateAt (f g : Table → Table) (path : List String) (t : Table) :
    updateAt g path (updateAt f path t) = updateAt (g ∘ f) path t := by
  induction path generalizing t with
  | nil => rfl
  | cons key path ih =>
    rw [updateAt, updateAt, updateAt, ensure_modify_ensure, modify_modify]
    congr 1
    funext v
    rw [Function.comp_apply, onTable_onTable]
    congr 1
    funext t
    exact ih t

theorem updateAt_append (f : Table → Table) (path path' : List String) (t : Table) :
    updateAt f (path ++ path') t = updateAt (updateAt f path') path t := by
  induction path generalizing t with
  | nil => rfl
  | cons key path ih =>
    rw [List.cons_append, updateAt, updateAt]
    congr 1
    funext v
    congr 1
    funext t
    exact ih t

/-! ### Reading the lines of a table -/

mutual

/-- What reading the lines of a node adds to the table at its path. -/
def Node.fill : Node → Table → Table
  | .table t, x => fillTables t ((Table.values t).foldl (fun x e => Table.insert x e.1 e.2) x)
  | _, x => x

/-- What reading the lines of the tables in a table adds to the table at its path. -/
def fillTables : List (String × Node) → Table → Table
  | [], x => x
  | (key, node) :: t, x => fillTables t (if node.isTable then updateAt node.fill [key] x else x)

end

/-- Lines read. -/
def Reader.readAll (r : Reader) (lines : List (ℕ × Line)) : Reader :=
  lines.foldl (fun r p => r.read p.2) r

theorem readAll_append (r : Reader) (lines lines' : List (ℕ × Line)) :
    r.readAll (lines ++ lines') = (r.readAll lines).readAll lines' := List.foldl_append

theorem readAll_entryLines (n : ℕ) (path : List String) (g : Table → Table) (root t : Table) :
    (Reader.mk (updateAt g path root) path).readAll (Table.entryLines n t) =
      ⟨updateAt (fun x => t.values.foldl (fun x e => x.insert e.1 e.2) (g x)) path root, path⟩ := by
  unfold Table.entryLines
  induction t.values generalizing g with
  | nil => rfl
  | cons e es ih =>
    have hread : (Reader.mk (updateAt g path root) path).read (.entry e.1 e.2) =
        ⟨updateAt (fun x => (g x).insert e.1 e.2) path root, path⟩ := by
      rw [Reader.read, updateAt_updateAt]
      rfl
    have hrest := ih fun x => (g x).insert e.1 e.2
    rw [← hread] at hrest
    exact hrest

mutual

theorem root_readTable (path : List String) (r : Reader) :
    ∀ node : Node, node.isTable = true →
      (r.readAll (node.lines path)).root = updateAt node.fill path r.root
  | .table t, _ => by
    have hlines := readAll_entryLines (4 * (path.length - 1)) path id r.root t
    have htables := root_readTables path
      (fun x => (Table.values t).foldl (fun x e => Table.insert x e.1 e.2) x) path r.root t
    rw [Node.lines]
    change (((Reader.mk (updateAt id path r.root) path).readAll _)).root = _
    rw [readAll_append, hlines]
    exact htables
  | .string _, h | .integer _, h | .float _, h | .boolean _, h | .other, h => by cases h

theorem root_readTables (path : List String) (g : Table → Table) (q : List String) (root : Table) :
    ∀ t : List (String × Node),
      ((Reader.mk (updateAt g path root) q).readAll (tableLines path t)).root =
        updateAt (fun x => fillTables t (g x)) path root
  | [] => rfl
  | (key, node) :: t => by
    rw [tableLines, readAll_append]
    cases htable : node.isTable with
    | false =>
      have hnone : node.lines (path ++ [key]) = [] := by
        cases node <;> first | rfl | cases htable
      have hrest := root_readTables path g q root t
      rw [hnone]
      simp only [fillTables, htable]
      exact hrest
    | true =>
      have hnode := root_readTable (path ++ [key]) ⟨updateAt g path root, q⟩ node htable
      rw [updateAt_append, updateAt_updateAt] at hnode
      have hrest := root_readTables path (updateAt node.fill [key] ∘ g)
        ((Reader.mk (updateAt g path root) q).readAll (node.lines (path ++ [key]))).path root t
      rw [← hnode] at hrest
      simp only [fillTables, htable]
      exact hrest

end

/-! ### Tables in order -/

theorem mem_place {e : String × Node} {key : String} {node : Node} {t : Table} :
    e ∈ Table.place key node t ↔ e = (key, node) ∨ e ∈ t := by
  induction t with
  | nil => simp [Table.place]
  | cons e' t ih =>
    obtain ⟨k, n⟩ := e'
    simp only [Table.place]
    split_ifs
    · simp
    · simp [ih, or_left_comm]

theorem mem_of_get {t : Table} {key : String} {node : Node} (h : t.get key = some node) :
    (key, node) ∈ t := by
  induction t with
  | nil => cases h
  | cons e t ih =>
    obtain ⟨k, n⟩ := e
    rw [Table.get_cons] at h
    split_ifs at h with hk
    · rw [hk, Option.some.inj h]
      exact List.mem_cons_self
    · exact List.mem_cons_of_mem _ (ih h)

theorem get_of_mem {t : Table} (ht : t.Sorted) {e : String × Node} (he : e ∈ t) :
    t.get e.1 = some e.2 := by
  induction t with
  | nil => cases he
  | cons e' t ih =>
    obtain ⟨k, n⟩ := e'
    obtain ⟨hlt, ht⟩ := List.pairwise_cons.1 ht
    rw [Table.get_cons]
    rcases List.mem_cons.1 he with rfl | he
    · exact if_pos rfl
    · rw [if_neg (hlt e he).ne', ih ht he]

/-- A key that is less than all of a table. -/
theorem get_eq_none_of_lt {t : Table} {key : String} (h : ∀ e ∈ t, key < e.1) :
    t.get key = none := by
  cases hn : t.get key with
  | none => rfl
  | some node => exact absurd (h _ (mem_of_get hn)) (lt_irrefl _)

/-- A table in order with a new key at its place. -/
theorem Table.Sorted.place {t : Table} (h : t.Sorted) {key : String} (hkey : t.get key = none)
    (node : Node) : (Table.place key node t).Sorted := by
  induction t with
  | nil => exact List.pairwise_singleton _ _
  | cons e t ih =>
    obtain ⟨k, n⟩ := e
    obtain ⟨hk, ht⟩ := List.pairwise_cons.1 h
    rw [Table.get_cons] at hkey
    split_ifs at hkey with hne
    simp only [Table.place]
    split_ifs with hlt
    · refine List.pairwise_cons.2 ⟨fun e he => ?_, h⟩
      rcases List.mem_cons.1 he with rfl | he
      · exact hlt
      · exact hlt.trans (hk e he)
    · refine List.pairwise_cons.2 ⟨fun e he => ?_, ih ht hkey⟩
      rcases mem_place.1 he with rfl | he
      · exact lt_of_le_of_ne (not_lt.1 hlt) (Ne.symm hne)
      · exact hk e he

theorem Table.Sorted.insert {t : Table} (h : t.Sorted) (key : String) (node : Node) :
    (t.insert key node).Sorted := by
  unfold Table.insert
  split_ifs with hsome
  · exact h
  · exact h.place (Option.not_isSome_iff_eq_none.1 hsome) node

theorem Table.Sorted.updateAt {t : Table} (h : t.Sorted) (f : Table → Table) (key : String) :
    (updateAt f [key] t).Sorted := by
  have hensure : (ensure t key).Sorted := by
    unfold ensure
    cases subtable t key with
    | none => exact h.insert key _
    | some s => exact h
  refine List.pairwise_map.2 (hensure.imp fun {e e'} hlt => ?_)
  split_ifs <;> exact hlt

/-- A table in order is known by what its keys hold. -/
theorem Table.Sorted.ext {t t' : Table} (h : t.Sorted) (h' : t'.Sorted)
    (hget : ∀ key, t.get key = t'.get key) : t = t' := by
  induction t generalizing t' with
  | nil =>
    cases t' with
    | nil => rfl
    | cons e t' =>
      have hkey := hget e.1
      rw [Table.get_cons, if_pos rfl] at hkey
      cases hkey
  | cons e t ih =>
    cases t' with
    | nil =>
      have hkey := hget e.1
      rw [Table.get_cons, if_pos rfl] at hkey
      cases hkey
    | cons e' t' =>
      obtain ⟨k, n⟩ := e
      obtain ⟨k', n'⟩ := e'
      obtain ⟨hk, ht⟩ := List.pairwise_cons.1 h
      obtain ⟨hk', ht'⟩ := List.pairwise_cons.1 h'
      have hfirst := hget k
      have hfirst' := hget k'
      rw [Table.get_cons, if_pos rfl] at hfirst
      rw [Table.get_cons k' k', if_pos rfl] at hfirst'
      have hsame : k = k' := by
        rcases List.mem_cons.1 (mem_of_get hfirst.symm) with heq | hmem
        · exact congrArg Prod.fst heq
        · rcases List.mem_cons.1 (mem_of_get hfirst') with heq | hmem'
          · exact (congrArg Prod.fst heq).symm
          · exact absurd (hk _ hmem') (lt_asymm (hk' _ hmem))
      subst hsame
      rw [Table.get_cons, if_pos rfl] at hfirst
      obtain rfl := Option.some.inj hfirst
      congr 1
      refine ih ht ht' fun key => ?_
      have hkey := hget key
      rw [Table.get_cons, Table.get_cons] at hkey
      by_cases heq : key = k
      · rw [heq, get_eq_none_of_lt hk, get_eq_none_of_lt hk']
      · rwa [if_neg heq, if_neg heq] at hkey

/-! ### Tables that are read back -/

mutual

/-- A plain value, or a table that is printable. -/
def Node.printable : Node → Bool
  | .table t => printableEntries t
  | v => v.plain

/-- Entries in order with keys without quotes, and with nodes that are printable. -/
def printableEntries : List (String × Node) → Bool
  | [] => true
  | (key, node) :: t =>
    bareKey key && node.printable && t.all (fun e => key < e.1) && printableEntries t

end

theorem printableEntries_cons {key : String} {node : Node} {t : Table}
    (h : printableEntries ((key, node) :: t) = true) : bareKey key = true ∧
      node.printable = true ∧ (∀ e ∈ t, key < e.1) ∧ printableEntries t = true := by
  obtain ⟨h, ht⟩ := Bool.and_eq_true_iff.1 h
  obtain ⟨h, hlt⟩ := Bool.and_eq_true_iff.1 h
  obtain ⟨hkey, hnode⟩ := Bool.and_eq_true_iff.1 h
  exact ⟨hkey, hnode, fun e he => of_decide_eq_true (List.all_eq_true.1 hlt e he), ht⟩

theorem sorted_of_printable {t : Table} (h : printableEntries t = true) : t.Sorted := by
  induction t with
  | nil => exact List.Pairwise.nil
  | cons e t ih =>
    obtain ⟨-, -, hlt, ht⟩ := printableEntries_cons h
    exact List.pairwise_cons.2 ⟨hlt, ih ht⟩

theorem get_updateAt (f : Table → Table) {key : String} {t : Table} (h : t.get key = none)
    (k : String) :
    (updateAt f [key] t).get k = if k = key then some (.table (f [])) else t.get k := by
  have hsub : subtable t key = none := by rw [subtable, h]
  have hensure : ensure t key = t.insert key (.table []) := by rw [ensure, hsub]
  change ((ensure t key).modify key _).get k = _
  rw [hensure, Table.get_modify, Table.get_insert, h]
  split_ifs <;> rfl

/-- The tables of a table in order are added to a table without their keys. -/
theorem get_fillTables {t : Table} (ht : t.Sorted)
    (hfill : ∀ e ∈ t, e.2.isTable = true → Node.table (e.2.fill []) = e.2) {x : Table}
    (hx : ∀ e ∈ t, e.2.isTable = true → x.get e.1 = none) (key : String) :
    (fillTables t x).get key =
      match t.get key with
      | some (.table s) => some (.table s)
      | _ => x.get key := by
  induction t generalizing x with
  | nil => rfl
  | cons e t ih =>
    obtain ⟨k, node⟩ := e
    obtain ⟨hlt, ht⟩ := List.pairwise_cons.1 ht
    have hfill' := fun e he => hfill e (List.mem_cons_of_mem _ he)
    have hnode := hfill (k, node) List.mem_cons_self
    have hk := hx (k, node) List.mem_cons_self
    have hrest := get_eq_none_of_lt hlt
    rw [fillTables, Table.get_cons]
    cases htable : node.isTable with
    | false =>
      rw [if_neg Bool.false_ne_true, ih ht hfill' fun e he => hx e (List.mem_cons_of_mem _ he)]
      by_cases hkey : key = k
      · rw [if_pos hkey, hkey, hrest]
        cases node <;> first | rfl | cases htable
      · rw [if_neg hkey]
    | true =>
      have hget := get_updateAt node.fill (hk htable)
      rw [if_pos rfl, ih ht hfill' fun e he htab => ?_]
      · rw [hget]
        by_cases hkey : key = k
        · rw [if_pos hkey, if_pos hkey, hkey, hrest]
          have hfilled := hnode htable
          cases node with
          | table s => exact congrArg some hfilled
          | _ => cases htable
        · rw [if_neg hkey, if_neg hkey]
      · rw [hget, if_neg (hlt e he).ne', hx e (List.mem_cons_of_mem _ he) htab]

theorem sorted_fillTables (t : Table) {x : Table} (hx : x.Sorted) : (fillTables t x).Sorted := by
  induction t generalizing x with
  | nil => exact hx
  | cons e t ih =>
    obtain ⟨k, node⟩ := e
    rw [fillTables]
    split_ifs
    · exact ih (hx.updateAt node.fill k)
    · exact ih hx

theorem get_values {t : Table} (ht : t.Sorted) (key : String) :
    Table.get t.values key = (t.get key).filter fun node => !node.isTable := by
  unfold Table.values
  induction t with
  | nil => rfl
  | cons e t ih =>
    obtain ⟨k, node⟩ := e
    obtain ⟨hlt, ht⟩ := List.pairwise_cons.1 ht
    rw [List.filter_cons, Table.get_cons]
    by_cases htable : node.isTable = true
    · rw [if_neg (by simp [htable]), ih ht]
      split_ifs with hkey
      · rw [hkey, get_eq_none_of_lt hlt, Option.filter_some, if_neg (by simp [htable])]
        rfl
      · rfl
    · rw [if_pos (by simp [htable]), Table.get_cons, ih ht]
      split_ifs
      · rw [Option.filter_some, if_pos (by simp [htable])]
      · rfl

theorem sorted_foldl_insert (entries : List (String × Node)) {x : Table} (hx : x.Sorted) :
    (entries.foldl (fun x e => Table.insert x e.1 e.2) x).Sorted := by
  induction entries generalizing x with
  | nil => exact hx
  | cons e entries ih => exact ih (hx.insert e.1 e.2)

/-- The entries that are not tables, and then the tables, are the whole table. -/
theorem fill_nil_of_entries {t : Table} (ht : t.Sorted)
    (hfill : ∀ e ∈ t, e.2.isTable = true → Node.table (e.2.fill []) = e.2) :
    (Node.table t).fill [] = t := by
  have hvalues : ∀ key, ((Table.values t).foldl (fun x e => Table.insert x e.1 e.2) []).get key =
      (t.get key).filter fun node => !node.isTable := by
    intro key
    rw [Table.get_foldl_insert, Table.get_nil, Option.none_or]
    exact get_values ht key
  have hsorted := sorted_foldl_insert (Table.values t) List.Pairwise.nil
  have hfree : ∀ e ∈ t, e.2.isTable = true →
      ((Table.values t).foldl (fun x e => Table.insert x e.1 e.2) []).get e.1 = none := by
    intro e he htable
    rw [hvalues, get_of_mem ht he, Option.filter_some, if_neg (by simp [htable])]
  rw [Node.fill]
  refine (sorted_fillTables t hsorted).ext ht fun key => ?_
  rw [get_fillTables ht hfill hfree, hvalues]
  cases t.get key with
  | none => rfl
  | some node => cases node <;> rfl

mutual

/-- What reading the lines of a printable table makes is the table. -/
theorem fill_nil : ∀ node : Node, node.printable = true → node.isTable = true →
    Node.table (node.fill []) = node
  | .table t, h, _ =>
    congrArg Node.table (fill_nil_of_entries (sorted_of_printable h) (fills_nil t h))
  | .string _, _, h | .integer _, _, h | .float _, _, h | .boolean _, _, h | .other, _, h => by
    cases h

theorem fills_nil : ∀ t : List (String × Node), printableEntries t = true →
    ∀ e ∈ t, e.2.isTable = true → Node.table (e.2.fill []) = e.2
  | [], _ => by simp
  | (key, node) :: t, h => by
    obtain ⟨-, hnode, -, ht⟩ := printableEntries_cons h
    intro e he
    rcases List.mem_cons.1 he with rfl | he
    · exact fill_nil node hnode
    · exact fills_nil t ht e he

end

/-! ### Round trip -/

/-- Lines that are plain are read as what they are. -/
theorem readLines_lineText (n : ℕ) (r : Reader) {lines : List (ℕ × Line)}
    (h : ∀ p ∈ lines, p.2.plain = true) :
    readLines n r (lines.map lineText) = .ok (r.readAll lines).root := by
  induction lines generalizing n r with
  | nil => rfl
  | cons p lines ih =>
    obtain ⟨hp, hlines⟩ := List.forall_mem_cons.1 h
    rw [List.map_cons, readLines, lineText, parseLine_text p.1 hp]
    exact ih (n + 1) (r.read p.2) hlines

theorem forall_of_printable {t : Table} (h : printableEntries t = true) :
    ∀ e ∈ t, bareKey e.1 = true ∧ e.2.printable = true := by
  induction t with
  | nil => simp
  | cons e t ih =>
    obtain ⟨hkey, hnode, -, ht⟩ := printableEntries_cons h
    exact List.forall_mem_cons.2 ⟨⟨hkey, hnode⟩, ih ht⟩

theorem plain_entryLines (n : ℕ) {t : Table} (h : printableEntries t = true) :
    ∀ p ∈ Table.entryLines n t, p.2.plain = true := by
  intro p hp
  obtain ⟨e, he, rfl⟩ := List.mem_map.1 hp
  obtain ⟨he, htable⟩ := List.mem_filter.1 he
  obtain ⟨hkey, hnode⟩ := forall_of_printable h e he
  refine Bool.and_eq_true_iff.2 ⟨hkey, ?_⟩
  cases hv : e.2 with
  | table s =>
    rw [hv] at htable
    cases htable
  | _ =>
    rw [hv] at hnode
    exact hnode

mutual

theorem plain_lines (path : List String) : ∀ node : Node, node.printable = true →
    path ≠ [] → path.all bareKey = true → ∀ p ∈ node.lines path, p.2.plain = true
  | .table t, h, hne, hpath => by
    have hheader : (Line.header path).plain = true :=
      Bool.and_eq_true_iff.2 ⟨by simpa using hne, hpath⟩
    rw [Node.lines]
    refine List.forall_mem_cons.2 ⟨rfl, List.forall_mem_cons.2 ⟨hheader, ?_⟩⟩
    exact List.forall_mem_append.2 ⟨plain_entryLines _ h, plain_tableLines path t h hpath⟩
  | .string _, _, _, _ | .integer _, _, _, _ | .float _, _, _, _ | .boolean _, _, _, _
  | .other, _, _, _ => by intro p hp; cases hp

theorem plain_tableLines (path : List String) : ∀ t : List (String × Node),
    printableEntries t = true → path.all bareKey = true →
      ∀ p ∈ tableLines path t, p.2.plain = true
  | [], _, _ => by intro p hp; cases hp
  | (key, node) :: t, h, hpath => by
    obtain ⟨hkey, hnode, -, ht⟩ := printableEntries_cons h
    have hpath' : (path ++ [key]).all bareKey = true := by simp [hpath, hkey]
    rw [tableLines]
    exact List.forall_mem_append.2
      ⟨plain_lines (path ++ [key]) node hnode (by simp) hpath', plain_tableLines path t ht hpath⟩

end

/-- The lines without a blank one at the start are read alike. -/
theorem readAll_lines (t : Table) : Reader.readAll {} t.lines =
    Reader.readAll {} (Table.entryLines 0 t ++ tableLines [] t) := by
  unfold Table.lines
  split
  · next heq => rw [heq]; rfl
  · rfl

theorem mem_lines {t : Table} {p : ℕ × Line} (h : p ∈ t.lines) :
    p ∈ Table.entryLines 0 t ++ tableLines [] t := by
  unfold Table.lines at h
  split at h
  · next heq => exact heq ▸ List.mem_cons_of_mem _ h
  · exact h

theorem root_readAll_lines {t : Table} (h : printableEntries t = true) :
    (Reader.readAll {} t.lines).root = t := by
  have hentries := readAll_entryLines 0 [] id [] t
  have htables := root_readTables [] (fun x => (Table.values t).foldl
    (fun x e => Table.insert x e.1 e.2) x) [] [] t
  rw [readAll_lines, readAll_append]
  change ((Reader.readAll ⟨updateAt id [] [], []⟩ _).readAll _).root = t
  rw [hentries]
  exact htables.trans (fill_nil_of_entries (sorted_of_printable h) (fills_nil t h))

/-- **A printable table is what its text is read as.** -/
theorem parse_print {t : Table} (h : printableEntries t = true) :
    parse (print t).flatten = .ok t := by
  have hplain : ∀ p ∈ t.lines, p.2.plain = true := fun p hp =>
    (List.forall_mem_append.2 ⟨plain_entryLines 0 h, plain_tableLines [] t h rfl⟩) p (mem_lines hp)
  have hlines := readLines_lineText 1 {} hplain
  rw [root_readAll_lines h] at hlines
  have htext : (print t).flatten = encode (['\n'].intercalate (t.lines.map lineText)) :=
    flatten_map_encode _
  rw [parse, htext, decode_encode]
  dsimp only
  by_cases hnil : t.lines = []
  · rw [hnil] at hlines ⊢
    exact hlines
  · have hone : ∀ text ∈ t.lines.map lineText, '\n' ∉ text := by
      intro text htext
      obtain ⟨p, hp, rfl⟩ := List.mem_map.1 htext
      have hspaces : '\n' ∉ List.replicate p.1 ' ' := fun hmem =>
        absurd (List.eq_of_mem_replicate hmem) (by decide)
      exact List.not_mem_append hspaces (not_mem_text (hplain p hp))
    rw [List.splitOn_intercalate '\n' hone (by simpa using hnil), hlines]

theorem parse_nil : parse [] = .ok [] := by
  have htext : ([] : List UInt8) = encode [] := rfl
  rw [parse, htext, decode_encode]
  rfl

/-- The interface with this text. -/
def Api.text : Api := Api.ofText Toml.parse Toml.print

theorem Api.laws_text : Api.text.Laws := Api.laws_ofText _ _

/-- Printable tables make the round trip. -/
theorem Api.roundTrips_text {t : Table} (h : printableEntries t = true) :
    Api.text.RoundTrips t where
  parse_nil := Toml.parse_nil
  parse_print := Toml.parse_print h

end Toml
