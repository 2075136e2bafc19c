import D3Hack.Ieee
import Mathlib.Data.List.Basic
import Mathlib.Algebra.Order.Ring.Int
import Mathlib.Data.String.Basic

/-!
# TOML tables

A `Toml.Table` is an ordered map from keys to nodes, kept as the list of its entries:
`Table.get` finds a node, `Table.insert` adds a new key at its place and leaves an existing
one alone, as `toml::table::insert` does. `Toml.Api` collects what the TOML library
provides, its typed accessors, its parser and its printer, and `Api.Laws` the documented
behaviour of the accessors that a reader relies on.

`Table.get_ofInserts` says that a table built by a series of inserts looks its keys up in
that series, and `subtable_insertIn` what an insert into a nested table changes.
-/

namespace Toml

/-- A TOML node; `other` stands for arrays, dates and times. -/
inductive Node where
  | string (s : String)
  | integer (i : ℤ)
  | float (x : Ieee)
  | boolean (b : Bool)
  | table (entries : List (String × Node))
  | other

/-- A table, as its entries in key order. -/
abbrev Table := List (String × Node)

/-- A parse error: its description and, where known, its line and column. -/
structure ParseError where
  description : String
  position : Option (ℕ × ℕ)
  deriving DecidableEq

/-- The interface of the TOML library. -/
structure Api where
  /-- `node::value<bool>`. -/
  valueBool : Node → Option Bool
  /-- `node::value<double>`. -/
  valueDouble : Node → Option Ieee
  /-- `node::value<int64_t>`. -/
  valueInt : Node → Option ℤ
  /-- `node::value<std::string>`. -/
  valueString : Node → Option String
  /-- `toml::parse`, without exceptions. -/
  parse : List UInt8 → Except ParseError Table
  /-- `toml::toml_formatter`, as the pieces of text it writes to a stream. -/
  print : Table → List (List UInt8)

/-- The accessors return the value of a node of their own type; an integer read as a double
is the same number, or nothing where it is too large to be one, and a string is no number. -/
structure Api.Laws (api : Api) : Prop where
  valueBool_boolean : ∀ b, api.valueBool (.boolean b) = some b
  valueDouble_float : ∀ x, api.valueDouble (.float x) = some x
  valueDouble_integer : ∀ i : ℤ,
    api.valueDouble (.integer i) = some (.fin i) ∨ api.valueDouble (.integer i) = none
  valueDouble_string : ∀ s, api.valueDouble (.string s) = none
  valueInt_integer : ∀ i, api.valueInt (.integer i) = some i
  valueInt_string : ∀ s, api.valueInt (.string s) = none
  valueString_string : ∀ s, api.valueString (.string s) = some s

/-- Printing a table and parsing the text gives the table, and an empty text is an empty
table. -/
structure Api.RoundTrips (api : Api) (t : Table) : Prop where
  parse_nil : api.parse [] = .ok []
  parse_print : api.parse (api.print t).flatten = .ok t

/-- Only an empty table prints as an empty text. -/
theorem Api.RoundTrips.flatten_ne_nil {api : Api} {t : Table} (h : api.RoundTrips t)
    (ht : t ≠ []) : (api.print t).flatten ≠ [] := by
  intro hnil
  have hparse := h.parse_print
  rw [hnil, h.parse_nil] at hparse
  exact ht (Except.ok.inj hparse).symm

/-- The accessors as documented, with a given parser and printer: integers convert to
booleans and to doubles that hold them, booleans to integers, and whole floats to
integers. -/
def Api.ofText (parse : List UInt8 → Except ParseError Table)
    (print : Table → List (List UInt8)) : Api where
  valueBool
    | .boolean b => some b
    | .integer i => some (decide (i ≠ 0))
    | _ => none
  valueDouble
    | .float x => some x
    | .integer i => if |i| ≤ 2 ^ 53 then some (.fin i) else none
    | _ => none
  valueInt
    | .integer i => some i
    | .boolean b => some b.toNat
    | .float (.fin q) => if q.den = 1 then some q.num else none
    | _ => none
  valueString
    | .string s => some s
    | _ => none
  parse := parse
  print := print

theorem Api.laws_ofText (parse : List UInt8 → Except ParseError Table)
    (print : Table → List (List UInt8)) : (Api.ofText parse print).Laws where
  valueBool_boolean _ := rfl
  valueDouble_float _ := rfl
  valueDouble_integer i := by
    by_cases h : |i| ≤ 2 ^ 53
    · exact Or.inl (if_pos h)
    · exact Or.inr (if_neg h)
  valueDouble_string _ := rfl
  valueInt_integer _ := rfl
  valueInt_string _ := rfl
  valueString_string _ := rfl

/-- The documented accessors alone: every text is an empty table. -/
def Api.accessors : Api := Api.ofText (fun _ => .ok []) fun _ => []

namespace Table

/-- `table::get`. -/
def get (t : Table) (key : String) : Option Node := t.lookup key

/-- The entries with a new one before the first of a greater key. -/
def place (key : String) (node : Node) : Table → Table
  | [] => [(key, node)]
  | (k, n) :: t => if key < k then (key, node) :: (k, n) :: t else (k, n) :: place key node t

/-- `table::insert`: an existing key keeps its node. -/
def insert (t : Table) (key : String) (node : Node) : Table :=
  if (t.get key).isSome then t else place key node t

/-- The table after a series of inserts into an empty one. -/
def ofInserts (entries : List (String × Node)) : Table :=
  entries.foldl (fun t e => t.insert e.1 e.2) []

/-- The table with the node of `key` replaced. -/
def modify (t : Table) (key : String) (f : Node → Node) : Table :=
  t.map fun e => if e.1 = key then (e.1, f e.2) else e

@[simp] theorem get_nil (key : String) : get [] key = none := rfl

theorem get_cons (k key : String) (n : Node) (t : Table) :
    get ((k, n) :: t) key = if key = k then some n else get t key := by
  rw [get, List.lookup_cons]
  split_ifs with h
  · rw [beq_iff_eq.2 h]
  · rw [beq_false_of_ne h]
    rfl

theorem get_place_of_ne {k key : String} (h : k ≠ key) (n : Node) (t : Table) :
    get (place key n t) k = get t k := by
  induction t with
  | nil => simp [place, get_cons, h]
  | cons e t ih =>
    obtain ⟨k', n'⟩ := e
    simp only [place]
    split_ifs
    · rw [get_cons, if_neg h]
    · rw [get_cons, get_cons, ih]

theorem get_place_self {key : String} (n : Node) {t : Table} (ht : get t key = none) :
    get (place key n t) key = some n := by
  induction t with
  | nil => simp [place, get_cons]
  | cons e t ih =>
    obtain ⟨k', n'⟩ := e
    rw [get_cons] at ht
    split_ifs at ht with hk
    simp only [place]
    split_ifs
    · rw [get_cons, if_pos rfl]
    · rw [get_cons, if_neg hk, ih ht]

theorem get_insert (t : Table) (key k : String) (n : Node) :
    (t.insert key n).get k =
      if k = key then some ((t.get key).getD n) else t.get k := by
  unfold insert
  by_cases hk : k = key
  · subst hk
    cases ht : t.get k with
    | none => simp [get_place_self n ht]
    | some n' => simp [ht]
  · rw [if_neg hk]
    split_ifs
    · rfl
    · exact get_place_of_ne hk n t

theorem get_foldl_insert (entries : List (String × Node)) (t : Table) (key : String) :
    (entries.foldl (fun t e => t.insert e.1 e.2) t).get key =
      (t.get key).or (entries.lookup key) := by
  induction entries generalizing t with
  | nil => simp
  | cons e entries ih =>
    obtain ⟨k, n⟩ := e
    rw [List.foldl_cons, ih, get_insert]
    change _ = (t.get key).or (get ((k, n) :: entries) key)
    rw [get_cons]
    split_ifs with hk
    · subst hk
      cases t.get key <;> rfl
    · rfl

/-- A series of inserts keeps the first node of each key. -/
theorem get_ofInserts (entries : List (String × Node)) (key : String) :
    (ofInserts entries).get key = entries.lookup key := by
  simp [ofInserts, get_foldl_insert]

theorem get_modify (t : Table) (key k : String) (f : Node → Node) :
    (t.modify key f).get k = if k = key then (t.get k).map f else t.get k := by
  induction t with
  | nil => simp [modify]
  | cons e t ih =>
    obtain ⟨k', n⟩ := e
    rw [modify, List.map_cons, ← modify]
    by_cases h : k' = key
    · subst h
      rw [if_pos rfl, get_cons, get_cons, ih]
      split_ifs <;> rfl
    · rw [if_neg h, get_cons, get_cons, ih]
      split_ifs <;> simp_all

end Table

/-! ## Nested tables -/

/-- The table at `key`, if the node there is one. -/
def subtable (root : Table) (key : String) : Option Table :=
  match root.get key with
  | some (.table t) => some t
  | _ => none

/-- A node with `key` inserted, if it is a table. -/
def Node.insert (key : String) (node : Node) : Node → Node
  | .table t => .table (Table.insert t key node)
  | n => n

/-- The root with the secs table created if it is not there. -/
def ensure (root : Table) (sec : String) : Table :=
  match subtable root sec with
  | some _ => root
  | none => root.insert sec (.table [])

/-- The root with `key` inserted into its section, which is created if need be. -/
def insertIn (root : Table) (sec key : String) (node : Node) : Table :=
  (ensure root sec).modify sec (Node.insert key node)

/-- The root with an item `(section, key, node)` inserted; an item without a node only has
its section created. -/
def insertItem (root : Table) (i : String × String × Option Node) : Table :=
  match i.2.2 with
  | some node => insertIn root i.1 i.2.1 node
  | none => ensure root i.1

/-- The root after a series of items. -/
def insertAll (root : Table) (items : List (String × String × Option Node)) : Table :=
  items.foldl insertItem root

/-- The entries that a series of inserts puts into a section. -/
def entriesFor (sec : String) (items : List (String × String × Option Node)) :
    List (String × Node) :=
  items.filterMap fun i => if i.1 = sec then i.2.2.map fun node => (i.2.1, node) else none

/-- Each key of the root holds a table. -/
def Sections (root : Table) : Prop := ∀ key node, root.get key = some node → ∃ t, node = .table t

theorem Sections.get_eq {root : Table} (h : Sections root) (key : String) :
    root.get key = (subtable root key).map Node.table := by
  unfold subtable
  cases hg : root.get key with
  | none => rfl
  | some node =>
    obtain ⟨t, rfl⟩ := h key node hg
    rfl

theorem Sections.ensure {root : Table} (h : Sections root) (s : String) :
    Sections (ensure root s) := by
  unfold Toml.ensure
  cases hs : subtable root s with
  | some t => exact h
  | none =>
    intro key node hn
    rw [Table.get_insert] at hn
    split_ifs at hn with hk
    · rw [h.get_eq, hs] at hn
      exact ⟨[], by simpa using hn.symm⟩
    · exact h key node hn

theorem subtable_ensure {root : Table} (h : Sections root) (s key : String) :
    subtable (ensure root s) key =
      if key = s then some ((subtable root s).getD []) else subtable root key := by
  unfold ensure
  cases hs : subtable root s with
  | some t =>
    split_ifs with hk
    · rw [hk, hs]; rfl
    · rfl
  | none =>
    unfold subtable
    rw [Table.get_insert, h.get_eq s, hs]
    split_ifs <;> rfl

theorem Sections.insertIn {root : Table} (h : Sections root) (s key : String) (n : Node) :
    Sections (insertIn root s key n) := by
  intro k node hn
  rw [Toml.insertIn, Table.get_modify] at hn
  split_ifs at hn with hk
  · rw [(h.ensure s).get_eq, Option.map_map, Option.map_eq_some_iff] at hn
    obtain ⟨t, -, rfl⟩ := hn
    exact ⟨_, rfl⟩
  · exact h.ensure s k node hn

/-- An insert into a section changes that section only. -/
theorem subtable_insertIn {root : Table} (h : Sections root) (s key k : String) (n : Node) :
    subtable (insertIn root s key n) k =
      if k = s then some (((subtable root s).getD []).insert key n) else subtable root k := by
  have he := subtable_ensure h s k
  rw [subtable, insertIn, Table.get_modify, (h.ensure s).get_eq, he]
  split_ifs with hk
  · rfl
  · cases subtable root k <;> rfl

theorem Sections.insertItem {root : Table} (h : Sections root)
    (i : String × String × Option Node) : Sections (insertItem root i) := by
  unfold Toml.insertItem
  cases i.2.2 with
  | some node => exact h.insertIn _ _ _
  | none => exact h.ensure _

/-- An item changes its section only, and there it adds its entry. -/
theorem subtable_insertItem {root : Table} (h : Sections root)
    (i : String × String × Option Node) (sec : String) :
    subtable (insertItem root i) sec =
      if sec = i.1 then
        some ((entriesFor sec [i]).foldl (fun t e => t.insert e.1 e.2)
          ((subtable root sec).getD []))
      else subtable root sec := by
  obtain ⟨s, k, o⟩ := i
  cases o with
  | some node =>
    simp only [insertItem, subtable_insertIn h]
    split_ifs with hs
    · simp [entriesFor, hs]
    · rfl
  | none =>
    simp only [insertItem, subtable_ensure h]
    split_ifs with hs
    · simp [entriesFor, hs]
    · rfl

theorem lookup_map_table (sections : List (String × Table)) (key : String) :
    (sections.map fun s => (s.1, Node.table s.2)).lookup key =
      (sections.lookup key).map Node.table := by
  induction sections with
  | nil => rfl
  | cons s sections ih =>
    obtain ⟨k, t⟩ := s
    rw [List.map_cons, List.lookup_cons, List.lookup_cons, ih]
    cases key == k <;> rfl

theorem sections_ofInserts (sections : List (String × Table)) :
    Sections (Table.ofInserts (sections.map fun s => (s.1, .table s.2))) := by
  intro key node hn
  rw [Table.get_ofInserts, lookup_map_table, Option.map_eq_some_iff] at hn
  obtain ⟨t, -, rfl⟩ := hn
  exact ⟨t, rfl⟩

theorem subtable_ofInserts (sections : List (String × Table)) (key : String) :
    subtable (Table.ofInserts (sections.map fun s => (s.1, .table s.2))) key =
      sections.lookup key := by
  rw [subtable, Table.get_ofInserts, lookup_map_table]
  cases sections.lookup key <;> rfl

/-- After a series of items a section that was there, or that an item names, holds its old
entries and then those of its items. -/
theorem exists_subtable_insertAll (sec : String) :
    ∀ (items : List (String × String × Option Node)) {root : Table}, Sections root →
      ((subtable root sec).isSome ∨ ∃ i ∈ items, i.1 = sec) →
      ∃ t, subtable (insertAll root items) sec = some t ∧ ∀ key, t.get key =
        (((subtable root sec).getD []).get key).or ((entriesFor sec items).lookup key)
  | [], root, _, hs => by
    have hs' : (subtable root sec).isSome := by simpa using hs
    obtain ⟨t, ht⟩ := Option.isSome_iff_exists.1 hs'
    exact ⟨t, ht, fun key => by simp [ht, entriesFor]⟩
  | i :: items, root, hroot, hs => by
    have hi := subtable_insertItem hroot i sec
    have hcons : entriesFor sec (i :: items) = entriesFor sec [i] ++ entriesFor sec items := by
      rw [← List.singleton_append, entriesFor, List.filterMap_append]
      rfl
    have hnext : (subtable (insertItem root i) sec).isSome ∨ ∃ i ∈ items, i.1 = sec := by
      rw [hi]
      split_ifs with h
      · exact Or.inl rfl
      · rcases hs with hs | ⟨j, hj, hjs⟩
        · exact Or.inl hs
        · rcases List.mem_cons.1 hj with rfl | hj
          · exact absurd hjs.symm h
          · exact Or.inr ⟨j, hj, hjs⟩
    obtain ⟨t, ht, hget⟩ := exists_subtable_insertAll sec items (hroot.insertItem i) hnext
    refine ⟨t, ht, fun key => ?_⟩
    rw [hget, hi, hcons, List.lookup_append, ← Option.or_assoc]
    split_ifs with h
    · rw [Option.getD_some, Table.get_foldl_insert]
    · have hnil : entriesFor sec [i] = [] := by simp [entriesFor, Ne.symm h]
      rw [hnil, List.lookup_nil, Option.or_none]

end Toml
