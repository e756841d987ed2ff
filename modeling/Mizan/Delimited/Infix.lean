import Mathlib.Data.List.Infix

namespace Delimited

variable {α : Type}

-- An occurrence without the separator lies on one side of it.
theorem infix_append_cons {separator : α} {pattern before after : List α}
    (hfree : separator ∉ pattern) :
    pattern <:+: before ++ separator :: after ↔ pattern <:+: before ∨ pattern <:+: after := by
  constructor
  · rintro ⟨left, right, heq⟩
    obtain ⟨rest, hbefore, -⟩ | ⟨rest, hleft, hright⟩ := List.append_eq_append_iff.mp heq
    · exact .inl ⟨left, rest, hbefore.symm⟩
    · cases rest with
      | nil =>
          rw [List.append_nil] at hleft
          exact .inl ⟨left, [], by rw [List.append_nil, hleft]⟩
      | cons first rest =>
          obtain ⟨rfl, hafter⟩ := List.cons.inj hright
          obtain ⟨inside, -, hpattern⟩ | ⟨inside, -, hinside⟩ := List.append_eq_append_iff.mp hleft
          · exact absurd (hpattern ▸ List.mem_append_right inside List.mem_cons_self) hfree
          · cases inside with
            | nil =>
                rw [List.nil_append] at hinside
                exact absurd (hinside ▸ List.mem_cons_self) hfree
            | cons _ inside =>
                obtain ⟨-, hrest⟩ := List.cons.inj hinside
                refine .inr ⟨inside, right, ?_⟩
                rw [hafter, hrest]
                rfl
  · rintro (h | h)
    · exact h.trans (List.prefix_append _ _).isInfix
    · exact h.trans ((List.suffix_cons separator after).trans (List.suffix_append _ _)).isInfix

end Delimited
