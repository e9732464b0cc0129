import Backjump.Proofs.Binary64.Shortest
import Backjump.Proofs.Chart.Library
import Mathlib.Data.List.Nodup

/-! The names of charts. A chart is named for the value whose rows it shows. Values of one kind
have different names unless they are the same, and none is named like a missing one, except for a text
that says so. Values of different kinds can share a name: the number 7 and the text `7`. -/
namespace Backjump

namespace Text

theorem toList_signedNumeral (n : Int) :
    (signedNumeral n).toList = Binary64.signChars (decide (n < 0)) ++ digits n.natAbs := by
  by_cases negative : n < 0
  · simp only [signedNumeral, negative, if_true, numeral, String.toList_append, String.toList_ofList,
      decide_true]
    rfl
  · simp only [signedNumeral, negative, if_false, numeral, String.toList_ofList, decide_false]
    rfl

/-- A whole number in print begins with its sign and goes on with its digits. -/
theorem splitSign_signedNumeral (n : Int) :
    Binary64.splitSign ((signedNumeral n).toList.dropWhile Binary64.isAsciiBlank) =
      (decide (n < 0), digits n.natAbs) := by
  obtain ⟨c, rest, first⟩ := List.exists_cons_of_ne_nil (digits_ne_nil n.natAbs)
  have digit := Binary64.allDigits_digits n.natAbs c (first ▸ List.mem_cons_self)
  rw [toList_signedNumeral, first, Binary64.splitSign_digit digit]

theorem signedNumeral_injective : Function.Injective signedNumeral := by
  intro m n same
  have parts := splitSign_signedNumeral m
  rw [same, splitSign_signedNumeral n, Prod.mk.injEq] at parts
  have sign : n < 0 ↔ m < 0 := decide_eq_decide.mp parts.1
  have magnitude : n.natAbs = m.natAbs := by
    rw [← valueAfter_digits n.natAbs, parts.2, valueAfter_digits]
  omega

theorem signedNumeral_ne_nan (n : Int) : signedNumeral n ≠ "nan" := by
  intro same
  have parts := splitSign_signedNumeral n
  rw [same] at parts
  have letters : ['n', 'a', 'n'] = digits n.natAbs := congrArg Prod.snd parts
  have digit := Binary64.allDigits_digits n.natAbs 'n' (letters ▸ List.mem_cons_self)
  contradiction

end Text

theorem Binary64.shortest_ne_nan {x : Binary64} (number : x.IsNumber) : x.shortest ≠ "nan" := by
  intro same
  have read := scan?_shortest number
  have none : scan? "nan" = none := by decide +kernel
  rw [same, none] at read
  contradiction

namespace Chart

variable {v w : Value} {values : List Value}

namespace Value

def SameKind : Value → Value → Prop
  | integer _, integer _ | real _, real _ | truth _, truth _ | text _, text _ => True
  | _, _ => False

theorem IsBinary64.isNumber {x : Binary64} (binary64 : (real x).IsBinary64)
    (present : (real x).isMissing = false) : x.IsNumber := by
  rcases binary64 x rfl with number | rfl
  · exact number
  · contradiction

theorem name_of_isMissing (missing : v.isMissing = true) : v.name = "nan" := by
  cases v with
  | missing => rfl
  | real x =>
    cases x with
    | nan => rfl
    | _ => contradiction
  | _ => contradiction

/-- A value that is there is named like a missing one only if it is a text. -/
theorem eq_text_of_name_eq_nan (binary64 : v.IsBinary64) (present : v.isMissing = false)
    (name : v.name = "nan") : v = text "nan" := by
  cases v with
  | missing => contradiction
  | integer n => exact absurd name (Text.signedNumeral_ne_nan n)
  | real x => exact absurd name (Binary64.shortest_ne_nan (binary64.isNumber present))
  | truth b => cases b <;> contradiction
  | text s => exact congrArg text name

/-- Different values of one kind have different names. -/
theorem eq_of_name_eq (kind : SameKind v w) (binary64 : v.IsBinary64) (binary64' : w.IsBinary64)
    (present : v.isMissing = false) (present' : w.isMissing = false) (same : v.name = w.name) : v = w := by
  cases v with
  | missing => contradiction
  | integer m =>
    cases w with
    | integer n => exact congrArg integer (Text.signedNumeral_injective same)
    | _ => contradiction
  | real x =>
    cases w with
    | real y =>
      have number := binary64.isNumber present
      exact congrArg real (Binary64.shortest_inj number (binary64'.isNumber present') same)
    | _ => contradiction
  | truth b =>
    cases w with
    | truth c => cases b <;> cases c <;> first | rfl | contradiction
    | _ => contradiction
  | text s =>
    cases w with
    | text t => exact congrArg text same
    | _ => contradiction

end Value

/-- Values of one kind, with no text that is named like a missing one beside one that is missing. -/
structure Alike (values : List Value) : Prop where
  kinds : ∀ v ∈ values, ∀ w ∈ values, v.isMissing = false → w.isMissing = false → v.SameKind w
  words : .text "nan" ∈ values → ∀ v ∈ values, v.isMissing = false

/-- The different values of a column that are alike have different names. -/
theorem Library.Keyed.nodup_names {L : Library} (keyed : L.Keyed values) (alike : Alike values)
    (binary64 : ∀ v ∈ values, v.IsBinary64) : ((L.unique values).map Value.name).Nodup := by
  refine List.pairwise_map.mpr (keyed.apart.imp_of_mem fun {first second} among among' different same => ?_)
  have listed := keyed.mem_of_mem_unique first among
  have listed' := keyed.mem_of_mem_unique second among'
  cases missing : first.isMissing with
  | true =>
    have present : second.isMissing = false := by simpa [missing] using different.2
    have named : second.name = "nan" := same.symm.trans (Value.name_of_isMissing missing)
    have word := Value.eq_text_of_name_eq_nan (binary64 second listed') present named
    exact absurd (missing.symm.trans (alike.words (word ▸ listed') first listed)) (by decide)
  | false =>
    cases missing' : second.isMissing with
    | true =>
      have named : first.name = "nan" := same.trans (Value.name_of_isMissing missing')
      have word := Value.eq_text_of_name_eq_nan (binary64 first listed) missing named
      exact absurd (missing'.symm.trans (alike.words (word ▸ listed) second listed')) (by decide)
    | false =>
      have kind := alike.kinds first listed second listed' missing missing'
      obtain rfl :=
        Value.eq_of_name_eq kind (binary64 first listed) (binary64 second listed') missing missing' same
      have self := keyed.equal_self first listed
      simp [missing, different.1] at self

/-- The names of the charts over all folders. -/
def summaryNames : List String :=
  ["avg_time_log.png", "avg_memory_log.png", "avg_decisions_log.png", "avg_conflicts_log.png"]

def folderName (key : Value) : String := "avg_time_" ++ key.name ++ "_log.png"

/-- No folder's chart is named like one over all folders. -/
theorem nodup_chartNames {keys : List Value} (names : (keys.map Value.name).Nodup) :
    (summaryNames ++ keys.map folderName).Nodup := by
  have short : ∀ name ∈ summaryNames, name.length < 17 ∨ name.toList.take 5 ≠ "avg_t".toList := by decide
  have long (key : Value) :
      17 ≤ (folderName key).length ∧ (folderName key).toList.take 5 = "avg_t".toList := by
    constructor
    · simp only [folderName, String.length_append]
      have parts : "avg_time_".length = 9 ∧ "_log.png".length = 8 := by decide
      omega
    · simp [folderName]
  have framed : Function.Injective fun name : String => "avg_time_" ++ name ++ "_log.png" := by
    intro a b same
    exact (String.append_right_inj _).mp ((String.append_left_inj _).mp same)
  refine List.nodup_append.mpr ⟨by decide, ?_, ?_⟩
  · have each := names.map framed
    rwa [List.map_map] at each
  · intro name summary name' folder same
    obtain ⟨key, -, rfl⟩ := List.mem_map.mp folder
    subst same
    rcases short _ summary with few | apart
    · exact absurd few (Nat.not_lt.mpr (long key).1)
    · exact apart (long key).2

end Chart

end Backjump
