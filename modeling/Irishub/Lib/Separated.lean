import Mathlib.Data.List.Infix

/-!
# Lists joined with a separator

Keys are often made of several parts with a separator `z` between them. A part without
the separator can be read from such a list, from the front and from the back. A part
that may contain it cannot: `joined_begins` says which lists of two parts begin another.
-/

namespace Irishub.Lib
open List

universe u

variable {α : Type u} {z : α} {a a' b b' c c' n n' r t x : List α}

lemma first_part_begins (hn : z ∉ n) (h : x ++ z :: r <+: n ++ z :: t) : n ++ [z] <+: x ++ [z] := by
  have hx : x ++ [z] <+: n ++ z :: t := by
    refine List.IsPrefix.trans ?_ h
    simp
  have hn' : n ++ [z] <+: n ++ z :: t := by simp
  rcases prefix_or_prefix_of_prefix hn' hx with hbegins | hbegins
  · exact hbegins
  · rcases prefix_concat_iff.mp hbegins with heq | hinside
    · rw [heq]
    · exact absurd (hinside.subset (by simp)) hn

lemma first_part_unique (hn : z ∉ n) (hn' : z ∉ n') (h : n ++ [z] <+: n' ++ z :: t) : n = n' := by
  rcases prefix_concat_iff.mp (first_part_begins hn' h) with heq | hinside
  · exact (append_cancel_right heq).symm
  · exact absurd (hinside.subset (by simp)) hn

lemma last_part_inj (hb : z ∉ b) (hb' : z ∉ b') (h : a ++ z :: b = a' ++ z :: b') :
    a = a' ∧ b = b' := by
  have hreverse := congrArg List.reverse h
  simp only [reverse_append, reverse_cons, append_assoc, singleton_append]
    at hreverse
  have hparts : b.reverse = b'.reverse :=
    first_part_unique (by simpa using hb) (by simpa using hb')
      (by rw [← hreverse]; simp)
  have hsame : b = b' := reverse_injective hparts
  subst hsame
  exact ⟨append_cancel_right h, rfl⟩

def joined (z : α) (c n : List α) : List α := c ++ z :: (n ++ [z])

lemma joined_begins_append (z : α) (c n t : List α) : joined z c n <+: c ++ z :: (n ++ z :: t) := by
  simp [joined]

/-- Two parts that begin a list of three parts. Either they are its first two parts, or they lie
within its first part, or its first part ends inside their first one. -/
lemma joined_begins (hn : z ∉ n) (hn' : z ∉ n') (h : joined z c n <+: c' ++ z :: (n' ++ z :: t)) :
    (c = c' ∧ n = n') ∨ joined z c n <+: c' ++ [z] ∨
      ∃ x, c = c' ++ z :: x ∧ x ++ z :: (n ++ [z]) <+: n' ++ z :: t := by
  have hc' : c' ++ [z] <+: c' ++ z :: (n' ++ z :: t) := by simp
  have hc : c ++ [z] <+: joined z c n := by simp [joined]
  have hsame : c = c' → (c = c' ∧ n = n') := by
    rintro rfl
    have hrest : n ++ [z] <+: n' ++ z :: t := by simpa [joined] using h
    exact ⟨rfl, first_part_unique hn hn' hrest⟩
  rcases prefix_or_prefix_of_prefix h hc' with hinside | houtside
  · exact .inr (.inl hinside)
  rcases prefix_or_prefix_of_prefix houtside hc with hle | hle
  · rcases prefix_concat_iff.mp hle with heq | ⟨x, rfl⟩
    · exact .inl (hsame (append_cancel_right heq).symm)
    · refine .inr (.inr ⟨x, by simp, ?_⟩)
      simpa [joined] using h
  · rcases prefix_concat_iff.mp hle with heq | ⟨x, rfl⟩
    · exact .inl (hsame (append_cancel_right heq))
    · -- the separator behind the first part can only be the last one
      have hx : x ++ [z] <+: n ++ [z] := by simpa [joined] using houtside
      rcases prefix_concat_iff.mp hx with heq | hinside
      · rw [append_cancel_right heq]
        exact .inr (.inl (by simp [joined]))
      · exact absurd (hinside.subset (by simp)) hn

lemma joined_begins_of_inside (hn' : z ∉ n') (h : x ++ z :: r <+: n' ++ z :: t) :
    joined z c' n' <+: c' ++ z :: x ++ [z] := by simpa [joined] using first_part_begins hn' h

end Irishub.Lib
