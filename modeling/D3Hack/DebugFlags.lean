import D3Hack.Runs
import Mathlib.Algebra.Group.Nat.Even
import Mathlib.Data.BitVec
import Mathlib.Data.List.DropRight
import Mathlib.Tactic.FinCases

/-!
# The debug flag words

The game keeps its debug flags in three words. `flagsAreFun` sets some of them, and
`appGlobalFlagDisable` is to clear one. It falls through from the word that its index selects to
the ones after it, and in each it flips every bit but the one of the flag.

`FlagsRight` says of a sequence of calls that each bit is what the last call that names it makes
it. `flagBit_run` says what the bits really are, and `flagsRight_iff` when the two agree.
-/

namespace D3Hack

open Runs

/-! ## The calls -/

/-- The words of debug flags in `g_tAppGlobals`. -/
structure AppGlobals where
  dwDebugFlags : BitVec 32
  dwDebugFlags2 : BitVec 32
  dwDebugFlags3 : BitVec 32
  deriving DecidableEq

/-- `AppGlobalFlagDisable`; no case ends with a `break`. -/
def appGlobalFlagDisable (idx : ℤ) (flag : ℕ) (g : AppGlobals) : AppGlobals :=
  let mask := ~~~((1 : BitVec 32) <<< flag)
  let case3 (g : AppGlobals) := { g with dwDebugFlags3 := g.dwDebugFlags3 ^^^ mask }
  let case2 (g : AppGlobals) := case3 { g with dwDebugFlags2 := g.dwDebugFlags2 ^^^ mask }
  let case1 (g : AppGlobals) := case2 { g with dwDebugFlags := g.dwDebugFlags ^^^ mask }
  if idx = -1 then case1 ⟨0xFFFFFFFF, 0xFFFFFFFF, 0xFFFFFFFF⟩
  else if idx = 1 then case1 g
  else if idx = 2 then case2 g
  else if idx = 3 then case3 g
  else g

/-- All hits are critical. -/
def APP_GLOBAL_ALL_HITS_CRIT_BIT : ℕ := 0x6

/-- All skills are displayed. -/
def APP_GLOBAL_DISPLAY_ALL_SKILLS : ℕ := 0xE

/-- The affixes of items are displayed. -/
def APP_GLOBAL_DISPLAY_ITEM_AFFIXES : ℕ := 0xF

/-- The attributes of items are displayed. -/
def APP_GLOBAL_DISPLAY_ITEM_ATTRIBUTES : ℕ := 0x17

/-- The animation of a hit is always played. -/
def APP_GLOBAL_ALWAYS_PLAY_GETHIT_BIT : ℕ := 0x19

/-- Rare items are not identified. -/
def APP_GLOBAL2_DONT_IDENTIFY_RARES_BIT : ℕ := 0xD

/-- All hits overkill. -/
def APP_GLOBAL2_ALL_HITS_OVERKILL_BIT : ℕ := 0x3

/-- All hits are crushing blows. -/
def APP_GLOBAL2_ALL_HITS_CRUSHING_BLOW_BIT : ℕ := 0x14

/-- Floating numbers are not throttled. -/
def APP_GLOBAL2_DONT_THROTTLE_FLOATING_NUMBERS : ℕ := 0x16

/-- The class that an item is for is displayed. -/
def APP_GLOBAL2_DISPLAY_ITEM_TARGETED_CLASS : ℕ := 0x15

/-- Rolls for ancient items succeed. -/
def APP_GLOBAL3_ANCIENT_ROLLS_WILL_ALWAYS_SUCCEED : ℕ := 0x5

/-- Ancient items are primal. -/
def APP_GLOBAL3_ANCIENTS_ALWAYS_ROLL_PRIMAL : ℕ := 0x4

/-- The screen does not glow at low health. -/
def APP_GLOBAL3_LOW_HEALTH_SCREEN_GLOW_DISABLED : ℕ := 0x0

/-- The console's edition is the collector's. -/
def APP_GLOBAL3_CONSOLE_COLLECTORS_EDITION : ℕ := 0x1

/-- The bits that `FlagsAreFun` sets in each word. -/
def funBits : Fin 3 → List ℕ
  | 0 => [APP_GLOBAL_ALL_HITS_CRIT_BIT, APP_GLOBAL_DISPLAY_ALL_SKILLS,
      APP_GLOBAL_DISPLAY_ITEM_AFFIXES, APP_GLOBAL_DISPLAY_ITEM_ATTRIBUTES,
      APP_GLOBAL_ALWAYS_PLAY_GETHIT_BIT]
  | 1 => [APP_GLOBAL2_DONT_IDENTIFY_RARES_BIT, APP_GLOBAL2_ALL_HITS_OVERKILL_BIT,
      APP_GLOBAL2_ALL_HITS_CRUSHING_BLOW_BIT, APP_GLOBAL2_DONT_THROTTLE_FLOATING_NUMBERS,
      APP_GLOBAL2_DISPLAY_ITEM_TARGETED_CLASS]
  | 2 => [APP_GLOBAL3_ANCIENT_ROLLS_WILL_ALWAYS_SUCCEED, APP_GLOBAL3_ANCIENTS_ALWAYS_ROLL_PRIMAL,
      APP_GLOBAL3_LOW_HEALTH_SCREEN_GLOW_DISABLED, APP_GLOBAL3_CONSOLE_COLLECTORS_EDITION]

/-- The assignments `word |= (1 << bit)`, one for each bit. -/
def setFlags (bits : List ℕ) (word : BitVec 32) : BitVec 32 :=
  bits.foldl (fun word bit => word ||| (1 : BitVec 32) <<< bit) word

/-- `FlagsAreFun`. -/
def flagsAreFun (g : AppGlobals) : AppGlobals where
  dwDebugFlags := setFlags (funBits 0) g.dwDebugFlags
  dwDebugFlags2 := setFlags (funBits 1) g.dwDebugFlags2
  dwDebugFlags3 := setFlags (funBits 2) g.dwDebugFlags3

/-! ## Sequences of calls -/

/-- A call, with the word and the flag of a disabling one; its index is one more than the place of
the word. -/
inductive FlagCall where
  | flagsAreFun
  | disable (word : Fin 3) (flag : Fin 32)
  deriving DecidableEq

/-- What a call does to the words. -/
def flagStep (g : AppGlobals) : FlagCall → AppGlobals
  | .flagsAreFun => flagsAreFun g
  | .disable word flag => appGlobalFlagDisable (word + 1 : ℤ) flag g

/-- The words by their places. -/
def AppGlobals.word (g : AppGlobals) : Fin 3 → BitVec 32
  | 0 => g.dwDebugFlags
  | 1 => g.dwDebugFlags2
  | 2 => g.dwDebugFlags3

/-- The bit of a flag. -/
def flagBit (g : AppGlobals) (word : Fin 3) (bit : Fin 32) : Bool := (g.word word).getLsbD bit

section Call

variable (word : Fin 3) (bit : Fin 32)

/-- The call is a `FlagsAreFun` that sets the bit. -/
def FlagCall.sets : FlagCall → Bool
  | .flagsAreFun => (bit : ℕ) ∈ funBits word
  | .disable .. => false

/-- The call is an `AppGlobalFlagDisable` of the bit. -/
def FlagCall.clears : FlagCall → Bool
  | .flagsAreFun => false
  | .disable word' flag => word' = word && flag = bit

/-- The call names the bit, to set it or to clear it. -/
def FlagCall.names (call : FlagCall) : Bool := call.sets word bit || call.clears word bit

/-- The call is an `AppGlobalFlagDisable` for the word or one before it, of another flag. -/
def FlagCall.flips : FlagCall → Bool
  | .flagsAreFun => false
  | .disable word' flag => word' ≤ word && flag ≠ bit

/-- The calls after the last that sets the bit. -/
def sinceSet (calls : List FlagCall) : List FlagCall := calls.rtakeWhile fun c => !c.sets word bit

/-- The bit before these calls. -/
def startBit (g : AppGlobals) (calls : List FlagCall) : Bool :=
  calls.any (FlagCall.sets word bit) || flagBit g word bit

end Call

/-- What the last call that names a bit makes it: set if the call sets it, clear if the call
disables it; and the bit as it was if there is no such call. -/
def askedBit (g : AppGlobals) (calls : List FlagCall) (word : Fin 3) (bit : Fin 32) : Bool :=
  match calls.reverse.find? (FlagCall.names word bit) with
  | some call => call.sets word bit
  | none => flagBit g word bit

/-- After the calls each bit is what the last call that names it makes it. -/
def FlagsRight (g : AppGlobals) (calls : List FlagCall) : Prop :=
  ∀ word bit, flagBit (run flagStep g calls) word bit = askedBit g calls word bit

/-- Since the bit was last set, an even number of calls flip it; or an odd number, if it was set
and one of the calls since disables it. -/
def FlipsBalanced (g : AppGlobals) (calls : List FlagCall) (word : Fin 3) (bit : Fin 32) : Prop :=
  Even ((sinceSet word bit calls).countP (FlagCall.flips word bit)) ↔
    ¬(startBit word bit g calls = true ∧ (sinceSet word bit calls).any (FlagCall.clears word bit))

/-! ## What a call does to a bit -/

theorem getLsbD_one_shiftLeft (flag : ℕ) (bit : Fin 32) :
    ((1 : BitVec 32) <<< flag).getLsbD bit = decide ((bit : ℕ) = flag) := by
  have hone : (1 : BitVec 32) <<< flag = BitVec.twoPow 32 flag := rfl
  rw [hone, BitVec.getLsbD_twoPow]
  have hlt := bit.isLt
  grind

theorem getLsbD_setFlags (bits : List ℕ) (word : BitVec 32) (bit : Fin 32) :
    (setFlags bits word).getLsbD bit = (word.getLsbD bit || decide ((bit : ℕ) ∈ bits)) := by
  induction bits generalizing word with
  | nil => simp [setFlags]
  | cons b bits ih =>
    rw [setFlags, List.foldl_cons, ← setFlags, ih, BitVec.getLsbD_or, getLsbD_one_shiftLeft,
      Bool.or_assoc]
    simp

/-- The mask of `AppGlobalFlagDisable` flips every bit but that of the flag. -/
theorem getLsbD_xor_mask (x : BitVec 32) (flag bit : Fin 32) :
    (x ^^^ ~~~((1 : BitVec 32) <<< (flag : ℕ))).getLsbD bit =
      (x.getLsbD bit ^^ decide (flag ≠ bit)) := by
  rw [BitVec.getLsbD_xor, BitVec.getLsbD_not, getLsbD_one_shiftLeft]
  simp [bit.isLt, Fin.ext_iff, eq_comm]

theorem flagBit_flagsAreFun (g : AppGlobals) (word : Fin 3) (bit : Fin 32) :
    flagBit (flagsAreFun g) word bit =
      (flagBit g word bit || decide ((bit : ℕ) ∈ funBits word)) := by
  fin_cases word <;> exact getLsbD_setFlags _ _ bit

theorem word_disable (g : AppGlobals) (word word' : Fin 3) (flag : ℕ) :
    (appGlobalFlagDisable (word' + 1 : ℤ) flag g).word word =
      if word' ≤ word then g.word word ^^^ ~~~((1 : BitVec 32) <<< flag) else g.word word := by
  fin_cases word' <;> fin_cases word <;> rfl

theorem flagBit_disable (g : AppGlobals) (word word' : Fin 3) (flag bit : Fin 32) :
    flagBit (appGlobalFlagDisable (word' + 1 : ℤ) flag g) word bit =
      (flagBit g word bit ^^ decide (word' ≤ word ∧ flag ≠ bit)) := by
  unfold flagBit
  rw [word_disable]
  split_ifs with hword
  · rw [getLsbD_xor_mask, decide_eq_decide.2 (and_iff_right hword)]
  · rw [decide_eq_false (mt And.left hword), Bool.xor_false]

/-- A call sets a bit, flips it or keeps it. -/
theorem flagBit_flagStep (g : AppGlobals) (call : FlagCall) (word : Fin 3) (bit : Fin 32) :
    flagBit (flagStep g call) word bit =
      (call.sets word bit || (flagBit g word bit ^^ call.flips word bit)) := by
  cases call with
  | flagsAreFun =>
    rw [flagStep, flagBit_flagsAreFun, FlagCall.flips, Bool.xor_false, Bool.or_comm]
    rfl
  | disable word' flag =>
    rw [flagStep, flagBit_disable, FlagCall.sets, Bool.false_or, FlagCall.flips,
      Bool.decide_and]

/-! ## What a sequence does to a bit -/

section Sequence

variable (g : AppGlobals) (calls : List FlagCall) (word : Fin 3) (bit : Fin 32)

/-- The bits are flipped as often as the calls since their last setting say. -/
theorem flagBit_run : flagBit (run flagStep g calls) word bit =
    (startBit word bit g calls ^^
      decide (Odd ((sinceSet word bit calls).countP (FlagCall.flips word bit)))) := by
  induction calls using List.reverseRecOn with
  | nil => simp [sinceSet, startBit]
  | append_singleton calls call ih =>
    rw [run_concat, flagBit_flagStep, ih]
    unfold startBit sinceSet
    rw [List.any_append, List.rtakeWhile_concat]
    cases hsets : call.sets word bit with
    | true => simp [hsets]
    | false =>
      rw [Bool.false_or, Bool.not_false, if_pos rfl, List.countP_append, List.countP_singleton,
        List.any_cons, hsets, List.any_nil, Bool.or_self, Bool.or_false]
      cases hflips : call.flips word bit with
      | true => simp only [if_true, Nat.odd_add_one, decide_not, Bool.xor_true, Bool.xor_not]
      | false => simp

/-- The last call that names a bit is the last that sets it, or one after it that disables it. -/
theorem askedBit_eq : askedBit g calls word bit =
    (startBit word bit g calls && !(sinceSet word bit calls).any (FlagCall.clears word bit)) := by
  induction calls using List.reverseRecOn with
  | nil => simp [askedBit, sinceSet, startBit]
  | append_singleton calls call ih =>
    unfold askedBit startBit sinceSet at ih ⊢
    rw [List.reverse_concat, List.find?_cons, List.any_append, List.rtakeWhile_concat,
      FlagCall.names]
    cases hsets : call.sets word bit with
    | true => simp [hsets]
    | false =>
      cases hclears : call.clears word bit with
      | true => simp [hsets, hclears]
      | false => simpa [hsets, hclears] using ih

/-- A bit is right exactly if its flips are balanced. -/
theorem flagBit_eq_askedBit_iff :
    flagBit (run flagStep g calls) word bit = askedBit g calls word bit ↔
      FlipsBalanced g calls word bit := by
  rw [flagBit_run, askedBit_eq, FlipsBalanced, ← Nat.not_odd_iff_even, not_iff_not]
  cases startBit word bit g calls <;>
    cases (sinceSet word bit calls).any (FlagCall.clears word bit) <;> simp

end Sequence

/-- **Each bit is what the last call that names it makes it if and only if its flips since it was
last set are balanced.** -/
theorem flagsRight_iff (g : AppGlobals) (calls : List FlagCall) :
    FlagsRight g calls ↔ ∀ word bit, FlipsBalanced g calls word bit :=
  forall_congr' fun word => forall_congr' fun bit => flagBit_eq_askedBit_iff g calls word bit

/-- One call to disable a flag. -/
def disableOnce : List FlagCall := [.disable 0 2]

theorem not_flagsRight_disableOnce : ¬FlagsRight ⟨0, 0, 0⟩ disableOnce := by
  intro h
  exact absurd (h 0 0) (by decide)

/-- A call that disables a flag flips another one of its word, which it does not name. -/
theorem not_flagsRight_disable {g : AppGlobals} {calls : List FlagCall}
    (hright : FlagsRight g calls) (word : Fin 3) (flag : Fin 32) :
    ¬FlagsRight g (calls ++ [.disable word flag]) := by
  intro h
  have hne : flag ≠ flag + 1 := by
    intro heq
    have hval := congrArg Fin.val heq
    rw [Fin.val_add] at hval
    omega
  have hafter := h word (flag + 1)
  rw [run_concat, flagStep, flagBit_disable, hright] at hafter
  have hasked : askedBit g (calls ++ [.disable word flag]) word (flag + 1) =
      askedBit g calls word (flag + 1) := by
    have hnames : FlagCall.names word (flag + 1) (.disable word flag) = false := by
      simp [FlagCall.names, FlagCall.sets, FlagCall.clears, hne]
    rw [askedBit, List.reverse_concat, List.find?_cons_of_neg (by simp [hnames]), askedBit]
  rw [hasked, decide_eq_true ⟨le_refl word, hne⟩] at hafter
  cases hbit : askedBit g calls word (flag + 1) <;> simp [hbit] at hafter

/-- **The bits are right after each of the calls exactly if none of them disables a flag.** -/
theorem forall_flagsRight_iff (g : AppGlobals) (calls : List FlagCall) :
    (∀ before, before <+: calls → FlagsRight g before) ↔ ∀ call ∈ calls, call = .flagsAreFun := by
  constructor
  · intro h call hcall
    obtain ⟨before, after, rfl⟩ := List.append_of_mem hcall
    have hright := h before (List.prefix_append _ _)
    have hnext := h (before ++ [call]) ⟨after, by simp⟩
    cases call with
    | flagsAreFun => rfl
    | disable word flag => exact absurd hnext (not_flagsRight_disable hright word flag)
  · intro h before hbefore
    rw [flagsRight_iff]
    intro word bit
    have hnone : ∀ call ∈ sinceSet word bit before, call = .flagsAreFun := fun call hcall =>
      h call (hbefore.subset (List.IsSuffix.subset (List.rtakeWhile_suffix _ _) hcall))
    have hflips : (sinceSet word bit before).countP (FlagCall.flips word bit) = 0 := by
      refine List.countP_eq_zero.2 fun call hcall => ?_
      rw [hnone call hcall]
      exact Bool.false_ne_true
    refine iff_of_true (by rw [hflips]; exact Even.zero) fun hclears => ?_
    obtain ⟨call, hcall, hcleared⟩ := List.any_eq_true.1 hclears.2
    rw [hnone call hcall] at hcleared
    exact Bool.false_ne_true hcleared

end D3Hack
