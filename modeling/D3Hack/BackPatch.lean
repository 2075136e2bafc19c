import Mathlib.Data.Nat.Notation
import Mathlib.Logic.Function.Basic

/-!
# Words that wait for the places of labels

An assembler of one pass writes a word that refers to a label without the place of the label when
the label comes later, notes where the word stands, and completes it once the label has its place.
`Item` is a word as it was meant, and `link` the words of a list of items as far as the places are
known. `Linked` says of the written words and of the notes that they are those of a list of items.

Writing keeps it (`Linked.write`), and so does placing a label, when the words that wait for the
label are completed (`Linked.place`). Once all labels are placed, the words are the meant ones.
-/

namespace BackPatch

variable {W L F A : Type*}

/-- A word that is finished, or one that refers to a label. -/
inductive Item (W L F : Type*) where
  | word (w : W)
  | refer (w : W) (l : L) (f : F)

namespace Item

/-- The word as it is written before the label is placed. -/
def bare : Item W L F → W
  | .word w => w
  | .refer w _ _ => w

/-- The label of an item, if it is one. -/
def label? : Item W L F → Option L
  | .word _ => none
  | .refer _ l _ => some l

end Item

variable (patch : F → ℕ → A → W → W)

/-- The word at position `n`, completed if the place of its label is known. -/
def Item.resolve (φ : L → Option A) (n : ℕ) : Item W L F → W
  | .word w => w
  | .refer w l f => (φ l).elim w fun a => patch f n a w

/-- The words of items from position `n` on. -/
def link (φ : L → Option A) : ℕ → List (Item W L F) → List W
  | _, [] => []
  | n, item :: items => item.resolve patch φ n :: link φ (n + 1) items

/-- The positions of the words that refer to a label. -/
def waiting [DecidableEq L] (l : L) : ℕ → List (Item W L F) → List (ℕ × F)
  | _, [] => []
  | n, .word _ :: items => waiting l (n + 1) items
  | n, .refer _ l' f :: items =>
    if l' = l then (n, f) :: waiting l (n + 1) items else waiting l (n + 1) items

/-- The words where those that wait for a place are completed with it. -/
def complete (a : A) (refs : List (ℕ × F)) (out : List W) : List W :=
  refs.foldl (fun out r => out.modify r.1 (patch r.2 r.1 a)) out

/-! ## Linking -/

section

variable {patch} {φ ψ : L → Option A} {n : ℕ} {items items' : List (Item W L F)}

@[simp]
theorem length_link (φ : L → Option A) (n : ℕ) (items : List (Item W L F)) :
    (link patch φ n items).length = items.length := by
  induction items generalizing n with
  | nil => rfl
  | cons item items ih => simp [link, ih]

theorem link_append (φ : L → Option A) (n : ℕ) (items items' : List (Item W L F)) :
    link patch φ n (items ++ items') =
      link patch φ n items ++ link patch φ (n + items.length) items' := by
  induction items generalizing n with
  | nil => rfl
  | cons item items ih =>
    rw [List.cons_append, link, link, ih, List.cons_append, List.length_cons]
    congr 3
    omega

/-- Only the labels of the items matter. -/
theorem link_congr (h : ∀ item ∈ items, ∀ l, item.label? = some l → φ l = ψ l) :
    link patch φ n items = link patch ψ n items := by
  induction items generalizing n with
  | nil => rfl
  | cons item items ih =>
    have hhead : item.resolve patch φ n = item.resolve patch ψ n := by
      cases item with
      | word w => rfl
      | refer w l f => rw [Item.resolve, Item.resolve, h _ List.mem_cons_self l rfl]
    rw [link, link, hhead, ih fun item' hmem => h item' (List.mem_cons_of_mem _ hmem)]

/-- Items whose labels have no place yet. -/
theorem link_eq_bare (h : ∀ item ∈ items, ∀ l, item.label? = some l → φ l = none) :
    link patch φ n items = items.map Item.bare := by
  induction items generalizing n with
  | nil => rfl
  | cons item items ih =>
    have hhead : item.resolve patch φ n = item.bare := by
      cases item with
      | word w => rfl
      | refer w l f => rw [Item.resolve, h _ List.mem_cons_self l rfl]; rfl
    rw [link, hhead, ih fun item' hmem => h item' (List.mem_cons_of_mem _ hmem), List.map_cons]

@[simp]
theorem link_words (φ : L → Option A) (n : ℕ) (ws : List W) :
    link patch φ n (ws.map (Item.word : W → Item W L F)) = ws := by
  rw [link_eq_bare, List.map_map, ← List.map_id ws]
  · rw [List.map_map]
    rfl
  · intro item hmem l hl
    obtain ⟨w, -, rfl⟩ := List.mem_map.1 hmem
    cases hl

end

/-! ## Waiting words -/

section

variable [DecidableEq L] {l : L} {n : ℕ} {items items' : List (Item W L F)}

theorem waiting_append (l : L) (n : ℕ) (items items' : List (Item W L F)) :
    waiting l n (items ++ items') =
      waiting l n items ++ waiting l (n + items.length) items' := by
  induction items generalizing n with
  | nil => rfl
  | cons item items ih =>
    have hlength : n + (items.length + 1) = n + 1 + items.length := by omega
    cases item with
    | word w => rw [List.cons_append, waiting, waiting, ih, List.length_cons, hlength]
    | refer w l' f =>
      rw [List.cons_append, waiting, waiting, ih, List.length_cons, hlength]
      split <;> rfl

theorem waiting_eq_nil (h : ∀ item ∈ items, item.label? ≠ some l) : waiting l n items = [] := by
  induction items generalizing n with
  | nil => rfl
  | cons item items ih =>
    have htail := ih (n := n + 1) fun item' hmem => h item' (List.mem_cons_of_mem _ hmem)
    cases item with
    | word w => rw [waiting, htail]
    | refer w l' f =>
      rw [waiting, if_neg fun heq => h _ List.mem_cons_self (congrArg some heq), htail]

theorem lt_of_mem_waiting {r : ℕ × F} (h : r ∈ waiting l n items) :
    n ≤ r.1 ∧ r.1 < n + items.length := by
  induction items generalizing n with
  | nil => cases h
  | cons item items ih =>
    rw [List.length_cons]
    cases item with
    | word w =>
      have := ih h
      omega
    | refer w l' f =>
      rw [waiting] at h
      split at h
      · rcases List.mem_cons.1 h with rfl | h
        · exact ⟨Nat.le_refl n, Nat.lt_add_of_pos_right (Nat.succ_pos _)⟩
        · have := ih h
          omega
      · have := ih h
        omega

theorem length_waiting_le : (waiting l n items).length ≤ items.length := by
  induction items generalizing n with
  | nil => exact Nat.le_refl 0
  | cons item items ih =>
    have := ih (n := n + 1)
    cases item with
    | word w => exact Nat.le_succ_of_le this
    | refer w l' f =>
      rw [waiting]
      split
      · exact Nat.succ_le_succ this
      · exact Nat.le_succ_of_le this

end

/-! ## Completing -/

section

variable {patch} {a : A} {refs : List (ℕ × F)} {out ws : List W}

@[simp]
theorem length_complete (a : A) (refs : List (ℕ × F)) (out : List W) :
    (complete patch a refs out).length = out.length := by
  induction refs generalizing out with
  | nil => rfl
  | cons r refs ih => rw [complete, List.foldl_cons, ← complete, ih, List.length_modify]

theorem complete_cons (r : ℕ × F) :
    complete patch a (r :: refs) out =
      complete patch a refs (out.modify r.1 (patch r.2 r.1 a)) := rfl

theorem modify_append_left {f : W → W} {n : ℕ} (h : n < out.length) :
    (out ++ ws).modify n f = out.modify n f ++ ws := by
  induction out generalizing n with
  | nil => exact absurd h (Nat.not_lt_zero n)
  | cons w out ih =>
    cases n with
    | zero => rfl
    | succ n =>
      rw [List.cons_append, List.modify_succ_cons, List.modify_succ_cons,
        ih (Nat.lt_of_succ_lt_succ h), List.cons_append]

theorem modify_append_cons (out : List W) (w : W) (ws : List W) (f : W → W) :
    (out ++ w :: ws).modify out.length f = out ++ f w :: ws := by
  induction out with
  | nil => rfl
  | cons v out ih => rw [List.cons_append, List.length_cons, List.modify_succ_cons, ih]; rfl

/-- Words behind those that wait are left alone. -/
theorem complete_append (h : ∀ r ∈ refs, r.1 < out.length) :
    complete patch a refs (out ++ ws) = complete patch a refs out ++ ws := by
  induction refs generalizing out with
  | nil => rfl
  | cons r refs ih =>
    have htail (r') (hmem : r' ∈ refs) : r'.1 < (out.modify r.1 (patch r.2 r.1 a)).length := by
      rw [List.length_modify]
      exact h r' (List.mem_cons_of_mem _ hmem)
    rw [complete_cons, complete_cons, modify_append_left (h r List.mem_cons_self), ih htail]

/-- A label is placed in a list of items behind other words. -/
theorem complete_link [DecidableEq L] {φ : L → Option A} {l : L} (hφ : φ l = none)
    (items : List (Item W L F)) (pre : List W) :
    complete patch a (waiting l pre.length items) (pre ++ link patch φ pre.length items) =
      pre ++ link patch (Function.update φ l (some a)) pre.length items := by
  induction items generalizing pre with
  | nil => rfl
  | cons item items ih =>
    -- the head is a word before the rest of the items
    have hrest (w : W) : complete patch a (waiting l (pre.length + 1) items)
        (pre ++ w :: link patch φ (pre.length + 1) items) =
          pre ++ w :: link patch (Function.update φ l (some a)) (pre.length + 1) items := by
      have h := ih (pre ++ [w])
      rw [List.length_append, List.length_singleton] at h
      simpa only [List.append_assoc, List.singleton_append] using h
    cases item with
    | word w => exact hrest w
    | refer w l' f =>
      rw [waiting, link, link]
      split
      next heq =>
        subst heq
        have hresolve : Item.resolve patch φ pre.length (.refer w l' f) = w := by
          rw [Item.resolve, hφ]; rfl
        have hresolve' : Item.resolve patch (Function.update φ l' (some a)) pre.length
            (.refer w l' f) = patch f pre.length a w := by
          rw [Item.resolve, Function.update_self]; rfl
        rw [complete_cons, hresolve, hresolve', modify_append_cons, hrest]
      next hne =>
        have hresolve : Item.resolve patch (Function.update φ l (some a)) pre.length
            (.refer w l' f) = Item.resolve patch φ pre.length (.refer w l' f) := by
          rw [Item.resolve, Item.resolve, Function.update_of_ne hne]
        rw [hresolve, hrest]

end

/-! ## Written words and their notes -/

section

variable [DecidableEq L]

/-- The words and the notes for unplaced labels are those of a list of items. -/
structure Linked (φ : L → Option A) (items : List (Item W L F)) (out : List W)
    (pending : L → List (ℕ × F)) : Prop where
  out_eq : out = link patch φ 0 items
  pending_eq : ∀ l, φ l = none → pending l = waiting l 0 items

variable {patch} {φ : L → Option A} {items items' : List (Item W L F)} {out : List W}
  {pending pending' : L → List (ℕ × F)}

theorem linked_nil (h : ∀ l, pending l = []) : Linked patch φ [] [] pending :=
  ⟨rfl, fun l _ => h l⟩

theorem Linked.length_eq (h : Linked patch φ items out pending) : out.length = items.length := by
  rw [h.out_eq, length_link]

/-- Words that refer to labels without a place are noted. -/
theorem Linked.write (h : Linked patch φ items out pending)
    (hφ : ∀ item ∈ items', ∀ l, item.label? = some l → φ l = none)
    (hpending : ∀ l, φ l = none → pending' l = pending l ++ waiting l out.length items') :
    Linked patch φ (items ++ items') (out ++ items'.map Item.bare) pending' where
  out_eq := by rw [link_append, ← h.out_eq, link_eq_bare hφ]
  pending_eq l hl := by
    rw [hpending l hl, h.pending_eq l hl, waiting_append, h.length_eq, Nat.zero_add]

/-- A label gets its place, and the words that wait for it are completed. -/
theorem Linked.place (h : Linked patch φ items out pending) {l : L} (hl : φ l = none) (a : A)
    (hpending : ∀ l', l' ≠ l → pending' l' = pending l') :
    Linked patch (Function.update φ l (some a)) items (complete patch a (pending l) out)
      pending' where
  out_eq := by
    rw [h.out_eq, h.pending_eq l hl]
    exact complete_link hl items []
  pending_eq l' hl' := by
    have hne : l' ≠ l := by
      rintro rfl
      rw [Function.update_self] at hl'
      cases hl'
    rw [Function.update_of_ne hne] at hl'
    rw [hpending l' hne, h.pending_eq l' hl']

theorem Linked.lt_length (h : Linked patch φ items out pending) {l : L} (hl : φ l = none)
    {r : ℕ × F} (hr : r ∈ pending l) : r.1 < out.length := by
  rw [h.pending_eq l hl] at hr
  rw [h.length_eq]
  have := (lt_of_mem_waiting hr).2
  omega

end

end BackPatch
