import Mathlib.Data.List.Forall2
import Mathlib.Data.List.Nodup
import PropertySets.Enumeration.Reconciler
import PropertySets.Proofs.Enumeration.Discriminants

/-!
# The names of variants

A variant is named by its literal without dots and dashes, with an underscore before a digit at the
start, up to an equals sign between blanks. Numbering the variants may give them other values, but
their names stay. So the variants of an enumeration have different names if the literals do when
they are spelled in this way, and different literals need not: `NOT-DEFINED` and `NOTDEFINED` have
one name, and so have `2D` and `_2D`. Nothing tells such variants apart.

* `upToSign`, `variantName` — how a literal is spelled as the name of a variant.
* `upToSign_append` — what is written behind a name does not change it.
* `signless_sanitizeLiteral` — the spelling of a literal is what its declaration has as a name.
* `KeptOrMoved.signless_eq` — the numbering keeps the names.
* `variants_apart` — when the variants of an enumeration have different names.
* `dashed_literal_shares_variant` — two literals with one variant.
-/

namespace PropertySets.Enumeration

open Naming Text

/-! ## Names in front of equals signs -/

/-- The characters before the first equals sign between blanks, of which the second one may be the
end. -/
def upToSign : List Char → List Char
  | [] => []
  | c :: s => if " = ".toList.isPrefixOf (c :: s ++ [' ']) then [] else c :: upToSign s

/-- A text up to the sign. -/
def signless (text : String) : String := String.ofList (upToSign text.toList)

/-- A literal as the name of a variant. -/
def variantName (literal : String) : String :=
  let kept := upToSign (literal.toList.filter fun c => c ≠ '.' && c ≠ '-')
  String.ofList (if literal.toList.head?.any isDecimalDigit then '_' :: kept else kept)

/-- Whether the sign starts is seen in three characters, and what is behind a text does not matter
if the text goes on with a blank. -/
theorem isPrefixOf_sign_append (c : Char) (s rest : List Char) :
    " = ".toList.isPrefixOf (c :: s ++ ' ' :: rest) =
      " = ".toList.isPrefixOf (c :: s ++ [' ']) := by
  match s with
  | [] => simp [List.isPrefixOf]
  | [d] => simp [List.isPrefixOf]
  | d :: e :: s => simp [List.isPrefixOf]

/-- What is written behind a name does not change it. -/
theorem upToSign_append (s rest : List Char) :
    upToSign (s ++ " = ".toList ++ rest) = upToSign s := by
  induction s with
  | nil => rfl
  | cons c s ih =>
    have hStart : " = ".toList.isPrefixOf (c :: s ++ " = ".toList ++ rest ++ [' ']) =
        " = ".toList.isPrefixOf (c :: s ++ [' ']) := by
      rw [List.append_assoc, List.append_assoc]
      exact isPrefixOf_sign_append c s _
    show (if " = ".toList.isPrefixOf (c :: s ++ " = ".toList ++ rest ++ [' ']) then []
      else c :: upToSign (s ++ " = ".toList ++ rest)) = _
    rw [hStart, ih, upToSign]

/-- A declaration and the name in it are the same up to the sign. -/
theorem signless_name (text : String) : signless (Variant.ofText text).name = signless text := by
  rw [Variant.ofText]
  split
  · rfl
  · rename_i name value hCut
    rw [signless, signless, Text.cutAt?_eq_some hCut, upToSign_append]
    split <;> rw [String.toList_ofList]

theorem signless_declare (name : String) (v : Int) :
    signless (declare name v) = signless name := by
  rw [signless, declare, String.toList_append, String.toList_append, upToSign_append, signless]

theorem isPrefixOf_sign_of_ne {c : Char} {s : List Char} (h : c :: s ≠ " =".toList) :
    " = ".toList.isPrefixOf (c :: s ++ [' ']) = " = ".toList.isPrefixOf (c :: s) := by
  match s with
  | [] => simp [List.isPrefixOf]
  | [d] =>
    simp only [String.reduceToList, ne_eq, List.cons.injEq, and_true, not_and] at h
    simpa [List.isPrefixOf] using fun hBlank => h hBlank.symm ∘ Eq.symm
  | d :: e :: s => simp [List.isPrefixOf]

/-- Unless a text ends in the first half of a sign, it is cut where the sign starts. -/
theorem cutAt?_eq_upToSign {s : List Char} (hEnd : ¬ " =".toList <:+ s) :
    ((Text.cutAt? " = ".toList s).map (·.1)).getD s = upToSign s := by
  induction s with
  | nil => rfl
  | cons c s ih =>
    have hRest : ¬ " =".toList <:+ s := fun hSuffix => hEnd (hSuffix.trans (List.suffix_cons c s))
    have hOther : c :: s ≠ " =".toList := fun hSame => hEnd (hSame ▸ List.suffix_refl _)
    rw [Text.cutAt?, upToSign, isPrefixOf_sign_of_ne hOther]
    -- both look for the sign at each place, from the start
    cases hStrip : Text.stripStart? " = ".toList (c :: s) with
    | some rest =>
      have hStart : " = ".toList.isPrefixOf (c :: s) = true := by
        rw [List.isPrefixOf_iff_prefix, Text.stripStart?_eq_some_iff.1 hStrip]
        exact List.prefix_append _ _
      rw [if_pos hStart]
      rfl
    | none =>
      have hStart : ¬ " = ".toList.isPrefixOf (c :: s) = true := by
        rw [List.isPrefixOf_iff_prefix]
        rintro ⟨rest, hSame⟩
        rw [Text.stripStart?_eq_some_iff.2 hSame.symm] at hStrip
        cases hStrip
      rw [if_neg hStart, ← ih hRest]
      cases Text.cutAt? " = ".toList s <;> rfl

/-- The name in a declaration that does not end in the first half of a sign. -/
theorem name_ofText {text : String} (hEnd : ¬ " =".toList <:+ text.toList) :
    (Variant.ofText text).name = signless text := by
  rw [signless, ← cutAt?_eq_upToSign hEnd, Variant.ofText]
  cases hCut : Text.cutAt? " = ".toList text.toList with
  | none => simp
  | some sides =>
    obtain ⟨name, value⟩ := sides
    simp only
    split <;> rfl

/-! ## Sanitized literals -/

/-- No sign starts with an underscore. -/
theorem upToSign_underscore (s : List Char) : upToSign ('_' :: s) = '_' :: upToSign s := by
  rw [upToSign]
  exact if_neg (by simp [List.isPrefixOf])

/-- What stands before the sign in the declaration of a literal. -/
theorem signless_sanitizeLiteral (literal : String) :
    signless (sanitizeLiteral literal) = variantName literal := by
  refine congrArg String.ofList ?_
  rw [sanitizeLiteral, String.toList_ofList]
  split
  · rw [List.filter_append, List.filter_cons_of_pos (by decide), List.cons_append,
      upToSign_underscore]
    -- the value that a literal of digits has is behind the sign
    split
    · rw [List.filter_append, ← List.append_assoc]
      exact congrArg ('_' :: ·) (upToSign_append _ _)
    · rw [List.filter_nil, List.append_nil]
  · rfl

/-! ## Numbering -/

theorem KeptOrMoved.signless_eq {text declaration : String} (h : KeptOrMoved text declaration) :
    signless text = signless declaration := by
  rcases h with rfl | ⟨v, rfl⟩
  · rfl
  · rw [signless_declare, signless_name]

/-- What holds of all texts and of what is made for variants that are moved holds of all
declarations. -/
theorem forall_mem_of_keptOrMoved {P : String → Prop} (hDeclare : ∀ name v, P (declare name v))
    {texts declarations : List String} (h : List.Forall₂ KeptOrMoved texts declarations)
    (hTexts : ∀ text ∈ texts, P text) : ∀ d ∈ declarations, P d := by
  induction h with
  | nil => nofun
  | cons hFirst _ ih =>
    obtain ⟨hText, hTexts⟩ := List.forall_mem_cons.1 hTexts
    refine List.forall_mem_cons.2 ⟨?_, ih hTexts⟩
    rcases hFirst with rfl | ⟨v, rfl⟩
    · exact hText
    · exact hDeclare _ v

theorem sign_notMem_toString (v : Int) : '=' ∉ (toString v).toList := by
  have hDigits : ∀ n : Nat, '=' ∉ Nat.toDigits 10 n := fun n hMem =>
    absurd (Nat.isDigit_of_mem_toDigits (by decide) (by decide) hMem) (by decide)
  rw [Int.toString_eq_repr, Int.repr_eq_if]
  split
  · rw [Nat.toList_repr]
    exact hDigits _
  · rw [String.toList_append, Nat.toList_repr, List.mem_append, not_or]
    exact ⟨by decide, hDigits _⟩

/-- A value is written out: the declaration that ends in it does not end in half a sign. -/
theorem not_suffix_declare (name : String) (v : Int) :
    ¬ " =".toList <:+ (declare name v).toList := by
  rintro ⟨start, hSame⟩
  rw [declare, String.toList_append] at hSame
  have hLast := congrArg List.getLast? hSame
  rw [List.getLast?_append, List.getLast?_append] at hLast
  cases hDigits : (toString v).toList.getLast? with
  | none =>
    rw [hDigits, String.toList_append, List.getLast?_append] at hLast
    cases hLast
  | some c =>
    rw [hDigits] at hLast
    obtain rfl : '=' = c := Option.some.inj hLast
    exact sign_notMem_toString v (List.mem_of_getLast? hDigits)

theorem map_signless_assign (q : Request) :
    (assign q.literals).declarations.map signless =
      q.items.map fun item => variantName item.literal := by
  have hNames : q.literals.map signless = (assign q.literals).declarations.map signless := by
    rw [← List.forall₂_eq_eq_eq, List.forall₂_map_left_iff, List.forall₂_map_right_iff]
    exact (assign_keptOrMoved q.literals).imp fun _ _ h => h.signless_eq
  rw [← hNames, Request.literals, List.map_map]
  exact List.map_congr_left fun item _ => signless_sanitizeLiteral item.literal

/-- **When variants are apart.** The variants that are written for an enumeration have different
names if its literals are spelled differently as names of variants. If no literal ends in half a
sign, these spellings are the names, one for each literal and in order, so they have to differ. -/
theorem variants_apart (q : Request) :
    ((q.items.map fun item => variantName item.literal).Nodup →
      ((assign q.literals).declarations.map fun d => (Variant.ofText d).name).Nodup) ∧
    ((∀ item ∈ q.items, ¬ " =".toList <:+ (sanitizeLiteral item.literal).toList) →
      ((assign q.literals).declarations.map fun d => (Variant.ofText d).name) =
        q.items.map fun item => variantName item.literal) := by
  rw [← map_signless_assign]
  refine ⟨fun hDistinct => ?_, fun hWhole => List.map_congr_left fun d hMem => name_ofText ?_⟩
  · -- declarations of one name would be the same up to the sign
    refine List.Nodup.of_map signless ?_
    rw [List.map_map]
    exact (List.map_congr_left fun d _ => signless_name d) ▸ hDistinct
  · exact forall_mem_of_keptOrMoved (P := fun d => ¬ " =".toList <:+ d.toList) not_suffix_declare
      (assign_keptOrMoved q.literals) (List.forall_mem_map.2 hWhole) d hMem

/-- An enumeration with literals of all shapes. -/
def mixedRequest : Request :=
  ⟨"IFC2X2", "IFC2X2", "PEnum_Grade", ["7", "2D", "1.5", "NOT-DEFINED", "A = 7"].map (⟨·, []⟩),
    "psd"⟩

/-- The variants of literals of all shapes are apart, and one that is moved keeps its name. -/
theorem mixedRequest_apart :
    ((mixedRequest.items.map fun item => variantName item.literal).Nodup ∧
      ∀ item ∈ mixedRequest.items, ¬ " =".toList <:+ (sanitizeLiteral item.literal).toList) ∧
    ((assign mixedRequest.literals).declarations.map fun d => (Variant.ofText d).name).Nodup ∧
    ((assign mixedRequest.literals).declarations.map fun d => (Variant.ofText d).name) =
      ["_7", "_2D", "_15", "NOTDEFINED", "A"] := by
  have hDistinct : (mixedRequest.items.map fun item => variantName item.literal).Nodup := by
    decide +kernel
  have hWhole : ∀ item ∈ mixedRequest.items,
      ¬ " =".toList <:+ (sanitizeLiteral item.literal).toList := by decide +kernel
  obtain ⟨hApart, hNames⟩ := variants_apart mixedRequest
  exact ⟨⟨hDistinct, hWhole⟩, hApart hDistinct, (hNames hWhole).trans (by decide +kernel)⟩

/-- An enumeration with a literal that occurs with and without a dash. -/
def dashedRequest : Request :=
  ⟨"IFC2X2", "IFC2X2", "PEnum_State", [⟨"NOT-DEFINED", []⟩, ⟨"NOTDEFINED", []⟩], "psd"⟩

/-- With and without a dash a literal is one variant: the literals are different, and what is
written for the enumeration declares the variant twice. -/
theorem dashed_literal_shares_variant :
    (dashedRequest.items.map (·.literal)).Nodup ∧
    ¬ ((assign dashedRequest.literals).declarations.map fun d => (Variant.ofText d).name).Nodup ∧
    sheetBody dashedRequest.name (assign dashedRequest.literals).declarations =
      "\n    #[derive(Debug, Clone, Copy, PartialEq, Eq, Hash)]\n    pub enum PEnum_State \x7b\n" ++
        "        NOTDEFINED,\n        NOTDEFINED\x7d\n" := by
  decide +kernel

end PropertySets.Enumeration
