import Mathlib.Logic.Relation
import Mathlib.Tactic.Common

namespace Mizan.Rtk

structure FilterPolicy where
  maxOutputChars : Nat := 4000
  retainedHeadChars : Nat := 1500
  retainedTailChars : Nat := 800
  deriving DecidableEq, Repr

structure RtkFilterResult where
  originalChars : Nat
  outputChars : Nat
  body : String
  filtered : Bool
  deriving DecidableEq, Repr

def truncationMarker (headChars tailChars : Nat) : String :=
  s!"\n\n[output truncated by mizan-rtk: {headChars} chars retained from head and {tailChars} from tail]\n"

def truncateMiddle (chars : List Char) (headChars tailChars : Nat) : List Char × List Char :=
  let headChars := min headChars chars.length
  let tailChars := min tailChars (chars.length - headChars)
  (chars.take headChars, chars.drop (chars.length - tailChars))

-- Both loops of `filter_output`: while too much is retained, the tail gives way before the head.
def shrink (exceeds : Nat → Nat → Bool) : (headChars tailChars : Nat) → Nat × Nat
  | headChars, tailChars + 1 =>
      if exceeds headChars (tailChars + 1) then shrink exceeds headChars tailChars
      else (headChars, tailChars + 1)
  | headChars + 1, 0 =>
      if exceeds (headChars + 1) 0 then shrink exceeds headChars 0 else (headChars + 1, 0)
  | 0, 0 => (0, 0)

def outputExceeds (maxOutputChars headChars tailChars : Nat) : Bool :=
  headChars + tailChars + (truncationMarker headChars tailChars).length > maxOutputChars

def requested (policy : FilterPolicy) (bodyLen : Nat) : Nat × Nat :=
  let retainedHeadChars := min policy.retainedHeadChars bodyLen
  (retainedHeadChars, min policy.retainedTailChars (bodyLen - retainedHeadChars))

def filterOutput (body : String) (policy : FilterPolicy) : RtkFilterResult :=
  let chars := body.toList
  let bodyLen := chars.length
  if bodyLen ≤ policy.maxOutputChars then
    { originalChars := bodyLen, outputChars := bodyLen, filtered := false, body }
  else
    let sizes := requested policy bodyLen
    let sizes := shrink (fun headChars tailChars => headChars + tailChars > policy.maxOutputChars)
      sizes.1 sizes.2
    let sizes := shrink (outputExceeds policy.maxOutputChars) sizes.1 sizes.2
    let marker := truncationMarker sizes.1 sizes.2
    let truncated := truncateMiddle chars sizes.1 sizes.2
    let body := truncated.1 ++ marker.toList ++ truncated.2
    let outputLen := body.length
    if outputLen > policy.maxOutputChars then
      let truncatedBody := body.take policy.maxOutputChars
      { originalChars := bodyLen, outputChars := truncatedBody.length, filtered := true
        body := String.ofList truncatedBody }
    else
      { originalChars := bodyLen, outputChars := outputLen, filtered := true
        body := String.ofList body }

-- One step of the shrinking order, from the tail first.
inductive Shorter : Nat × Nat → Nat × Nat → Prop where
  | tail (headChars tailChars : Nat) : Shorter (headChars, tailChars + 1) (headChars, tailChars)
  | head (headChars : Nat) : Shorter (headChars + 1, 0) (headChars, 0)

-- The sizes are where the order begins, or those before them exceed the limit.
def Maximal (exceeds : Nat → Nat → Bool) (start sizes : Nat × Nat) : Prop :=
  sizes = start ∨ ∃ previous, Relation.ReflTransGen Shorter start previous ∧
    Shorter previous sizes ∧ exceeds previous.1 previous.2 = true

section Shrink

variable {exceeds exceeds' : Nat → Nat → Bool} {start middle sizes : Nat × Nat}

theorem Maximal.reaches (h : Maximal exceeds start sizes) :
    Relation.ReflTransGen Shorter start sizes := by
  rcases h with rfl | ⟨previous, hreaches, hshorter, _⟩
  · exact .refl
  · exact hreaches.tail hshorter

theorem Maximal.mono (h : Maximal exceeds start sizes)
    (himp : ∀ headChars tailChars, exceeds headChars tailChars = true →
      exceeds' headChars tailChars = true) : Maximal exceeds' start sizes := by
  rcases h with rfl | ⟨previous, hreaches, hshorter, hexceeds⟩
  · exact .inl rfl
  · exact .inr ⟨previous, hreaches, hshorter, himp _ _ hexceeds⟩

theorem Maximal.trans (h : Maximal exceeds start middle) (h' : Maximal exceeds middle sizes) :
    Maximal exceeds start sizes := by
  rcases h' with rfl | ⟨previous, hreaches, hshorter, hexceeds⟩
  · exact h
  · exact .inr ⟨previous, h.reaches.trans hreaches, hshorter, hexceeds⟩

theorem Maximal.of_step (hshorter : Shorter start middle)
    (hexceeds : exceeds start.1 start.2 = true) (h : Maximal exceeds middle sizes) :
    Maximal exceeds start sizes :=
  Maximal.trans (.inr ⟨start, .refl, hshorter, hexceeds⟩) h

theorem le_of_reaches (h : Relation.ReflTransGen Shorter start sizes) :
    sizes.1 ≤ start.1 ∧ sizes.2 ≤ start.2 := by
  induction h with
  | refl => exact ⟨Nat.le_refl _, Nat.le_refl _⟩
  | tail _ hshorter ih =>
      cases hshorter with
      | tail headChars tailChars => exact ⟨ih.1, by have := ih.2; omega⟩
      | head headChars => exact ⟨by have := ih.1; omega, ih.2⟩

-- The loop stops at the first sizes that do not exceed, or with nothing left.
theorem shrink_spec (exceeds : Nat → Nat → Bool) (headChars tailChars : Nat) :
    Maximal exceeds (headChars, tailChars) (shrink exceeds headChars tailChars) ∧
      (shrink exceeds headChars tailChars = (0, 0) ∨
        exceeds (shrink exceeds headChars tailChars).1 (shrink exceeds headChars tailChars).2 =
          false) := by
  induction headChars, tailChars using shrink.induct exceeds with
  | case1 headChars tailChars hexceeds ih =>
      rw [shrink, if_pos hexceeds]
      exact ⟨ih.1.of_step (.tail headChars tailChars) hexceeds, ih.2⟩
  | case2 headChars tailChars hfits =>
      rw [shrink, if_neg hfits]
      exact ⟨.inl rfl, .inr (eq_false_of_ne_true hfits)⟩
  | case3 headChars hexceeds ih =>
      rw [shrink, if_pos hexceeds]
      exact ⟨ih.1.of_step (.head headChars) hexceeds, ih.2⟩
  | case4 headChars hfits =>
      rw [shrink, if_neg hfits]
      exact ⟨.inl rfl, .inr (eq_false_of_ne_true hfits)⟩
  | case5 =>
      rw [shrink]
      exact ⟨.inl rfl, .inl rfl⟩

end Shrink

-- What stands between the two ends, with the numbers of their characters in decimal.
def markerText (headChars tailChars : Nat) : String :=
  "\n\n[output truncated by mizan-rtk: " ++ Nat.repr headChars ++
    " chars retained from head and " ++ Nat.repr tailChars ++ " from tail]\n"

example : markerText 20 7 =
    "\n\n[output truncated by mizan-rtk: 20 chars retained from head and " ++
    "7 from tail]\n" := by decide +kernel

-- The ends and what stands between them are more than the limit.
def TooLong (maxOutputChars headChars tailChars : Nat) : Bool :=
  maxOutputChars < headChars + (markerText headChars tailChars).length + tailChars

-- What is retained of a text that is too long. The order begins with the sizes that are asked for,
-- the head clipped to the text and the tail to what the head leaves of it.
structure Retained (text : String) (policy : FilterPolicy) (body : String)
    (headChars tailChars : Nat) : Prop where
  head : headChars ≤ policy.retainedHeadChars
  tail : tailChars ≤ policy.retainedTailChars
  within : headChars + tailChars ≤ text.length
  body : body = String.ofList (text.toList.take headChars) ++
    ("\n\n[output truncated by mizan-rtk: " ++ Nat.repr headChars ++
      " chars retained from head and " ++ Nat.repr tailChars ++ " from tail]\n") ++
    String.ofList (text.toList.drop (text.length - tailChars))
  maximal : Maximal (TooLong policy.maxOutputChars)
    (min policy.retainedHeadChars text.length,
      min policy.retainedTailChars (text.length - min policy.retainedHeadChars text.length))
    (headChars, tailChars)

theorem truncationMarker_eq (headChars tailChars : Nat) :
    truncationMarker headChars tailChars = markerText headChars tailChars := by
  unfold truncationMarker markerText
  -- The literals are kept from being unfolded to their characters.
  generalize "\n\n[output truncated by mizan-rtk: " = opening
  generalize " chars retained from head and " = middle
  generalize " from tail]\n" = closing
  rfl

theorem outputExceeds_eq (maxOutputChars : Nat) :
    outputExceeds maxOutputChars = TooLong maxOutputChars := by
  funext headChars tailChars
  rw [outputExceeds, TooLong, truncationMarker_eq]
  apply decide_eq_decide.mpr
  omega

theorem filterOutput_of_fits {text : String} {policy : FilterPolicy}
    (h : text.length ≤ policy.maxOutputChars) :
    filterOutput text policy = { originalChars := text.length, outputChars := text.length
                                 body := text, filtered := false } :=
  if_pos h

-- The sizes that both loops leave.
def retainedSizes (policy : FilterPolicy) (bodyLen : Nat) : Nat × Nat :=
  let sizes := requested policy bodyLen
  let sizes := shrink (fun headChars tailChars => headChars + tailChars > policy.maxOutputChars)
    sizes.1 sizes.2
  shrink (outputExceeds policy.maxOutputChars) sizes.1 sizes.2

def joined (text : String) (sizes : Nat × Nat) : List Char :=
  let truncated := truncateMiddle text.toList sizes.1 sizes.2
  truncated.1 ++ (truncationMarker sizes.1 sizes.2).toList ++ truncated.2

theorem filterOutput_of_exceeds {text : String} {policy : FilterPolicy}
    (h : policy.maxOutputChars < text.length) :
    (filterOutput text policy).filtered = true ∧
      (filterOutput text policy).outputChars = (filterOutput text policy).body.length ∧
      (filterOutput text policy).outputChars ≤ policy.maxOutputChars ∧
      ((joined text (retainedSizes policy text.length)).length ≤ policy.maxOutputChars →
        (filterOutput text policy).body =
          String.ofList (joined text (retainedSizes policy text.length))) := by
  have hexceeds : ¬text.toList.length ≤ policy.maxOutputChars := Nat.not_le.mpr h
  have hjoined : joined text (retainedSizes policy text.length) =
      (truncateMiddle text.toList (retainedSizes policy text.length).1
        (retainedSizes policy text.length).2).1 ++
      (truncationMarker (retainedSizes policy text.length).1
        (retainedSizes policy text.length).2).toList ++
      (truncateMiddle text.toList (retainedSizes policy text.length).1
        (retainedSizes policy text.length).2).2 := rfl
  generalize hbody : joined text (retainedSizes policy text.length) = body at hjoined ⊢
  have hresult : filterOutput text policy =
      if body.length > policy.maxOutputChars then
        { originalChars := text.toList.length
          outputChars := (body.take policy.maxOutputChars).length
          filtered := true, body := String.ofList (body.take policy.maxOutputChars) }
      else
        { originalChars := text.toList.length, outputChars := body.length, filtered := true
          body := String.ofList body } := by
    rw [← hbody]
    exact if_neg hexceeds
  rw [hresult]
  split
  · rename_i hlong
    refine ⟨rfl, String.length_ofList.symm, ?_, fun hfits => absurd hlong (by omega)⟩
    exact List.length_take_le _ _
  · rename_i hfits
    exact ⟨rfl, String.length_ofList.symm, Nat.not_lt.mp hfits, fun _ => rfl⟩

theorem retainedSizes_maximal (policy : FilterPolicy) (bodyLen : Nat) :
    Maximal (outputExceeds policy.maxOutputChars) (requested policy bodyLen)
      (retainedSizes policy bodyLen) := by
  have hfirst := (shrink_spec
    (fun headChars tailChars => headChars + tailChars > policy.maxOutputChars)
    (requested policy bodyLen).1 (requested policy bodyLen).2).1
  refine Maximal.trans (hfirst.mono fun headChars tailChars hexceeds => ?_) (shrink_spec _ _ _).1
  have hlong := of_decide_eq_true hexceeds
  exact decide_eq_true (by omega)

theorem retainedSizes_fit {policy : FilterPolicy} {bodyLen : Nat}
    (hmarker : (truncationMarker 0 0).length ≤ policy.maxOutputChars) :
    outputExceeds policy.maxOutputChars (retainedSizes policy bodyLen).1
      (retainedSizes policy bodyLen).2 = false := by
  rcases (shrink_spec (outputExceeds policy.maxOutputChars) _ _).2 with hzero | hfits
  · rw [retainedSizes, hzero]
    have hempty : outputExceeds policy.maxOutputChars 0 0 = false := decide_eq_false (by omega)
    exact hempty
  · exact hfits

theorem retained (text : String) (policy : FilterPolicy)
    (hmarker : (markerText 0 0).length ≤ policy.maxOutputChars) :
    (joined text (retainedSizes policy text.length)).length ≤ policy.maxOutputChars ∧
    Retained text policy (String.ofList (joined text (retainedSizes policy text.length)))
      (retainedSizes policy text.length).1 (retainedSizes policy text.length).2 := by
  have hmaximal := retainedSizes_maximal policy text.length
  rw [← truncationMarker_eq] at hmarker
  have hfits := of_decide_eq_false (@retainedSizes_fit policy text.length hmarker)
  have hle := le_of_reaches hmaximal.reaches
  generalize retainedSizes policy text.length = sizes at *
  have hlength : text.toList.length = text.length := rfl
  have hmarkerLength : (truncationMarker sizes.1 sizes.2).toList.length =
      (truncationMarker sizes.1 sizes.2).length := rfl
  have hrequested : (requested policy text.length).1 = min policy.retainedHeadChars text.length ∧
      (requested policy text.length).2 = min policy.retainedTailChars
        (text.length - min policy.retainedHeadChars text.length) := ⟨rfl, rfl⟩
  have hwithin : sizes.1 + sizes.2 ≤ text.length := by omega
  have hjoined : joined text sizes = text.toList.take sizes.1 ++
      (truncationMarker sizes.1 sizes.2).toList ++ text.toList.drop (text.length - sizes.2) := by
    have hhead : min sizes.1 text.length = sizes.1 := by omega
    have htail : min sizes.2 (text.length - sizes.1) = sizes.2 := by omega
    simp only [joined, truncateMiddle, hlength, hhead, htail]
  constructor
  · rw [hjoined]
    simp only [List.length_append, List.length_take, List.length_drop]
    omega
  · exact
      { head := by omega
        tail := by omega
        within := hwithin
        body := by
          rw [hjoined, String.ofList_append, String.ofList_append, String.ofList_toList,
            truncationMarker_eq]
          rfl
        maximal := by
          rw [← outputExceeds_eq]
          exact hmaximal }

-- What the filter makes of a text of any length, under any policy.
theorem filter_output_retains_most (text : String) (policy : FilterPolicy) :
    (text.length ≤ policy.maxOutputChars →
      (filterOutput text policy).body = text ∧ (filterOutput text policy).filtered = false) ∧
    (policy.maxOutputChars < text.length →
      (filterOutput text policy).filtered = true ∧
      (filterOutput text policy).outputChars = (filterOutput text policy).body.length ∧
      (filterOutput text policy).outputChars ≤ policy.maxOutputChars ∧
      ((markerText 0 0).length ≤ policy.maxOutputChars → ∃ headChars tailChars,
        Retained text policy (filterOutput text policy).body headChars tailChars)) := by
  constructor
  · intro h
    rw [filterOutput_of_fits h]
    exact ⟨rfl, rfl⟩
  · intro h
    obtain ⟨hfiltered, hcount, hlimit, hbody⟩ := filterOutput_of_exceeds h
    refine ⟨hfiltered, hcount, hlimit, fun hmarker => ?_⟩
    obtain ⟨hlength, hretained⟩ := retained text policy hmarker
    rw [hbody hlength]
    exact ⟨_, _, hretained⟩

end Mizan.Rtk
