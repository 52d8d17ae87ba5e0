import Mathlib.Data.List.Basic

/-!
# Texts put together out of pieces

Looking for a phrase in a text that is made of given pieces and fixed words between them. Fixed
words that can neither hold a part of the phrase nor end within it (`Separates`) keep the pieces
apart: the phrase is in the text only if it is in a piece. Whether given words do is a computation.

This is what decides a program that recognises its own errors by a phrase in their message. The
message has fixed words and, between them, names that come from outside; the phrase is found in it
exactly where it stands in the fixed words or **where one of the names brings it along**. A name
that holds the phrase cannot be ruled out by looking at the program, so the lemmas are equivalences
and not one-way implications.

The lists may be of anything with decidable equality. An occurrence that begins in one piece and
ends in another would have to run through the words between them, and `Separates` says that it meets
a difference there.
-/

set_option autoImplicit false

namespace Lib

variable {α : Type}

/-- The phrase cannot begin in `words`, and cannot reach into `words` from before it: wherever the
two overlap they differ. -/
def Separates (phrase words : List α) : Prop :=
  (∀ n < phrase.length, ¬ phrase.drop n <+: words ∧ ¬ words <+: phrase.drop n) ∧
    ∀ n < words.length, ¬ phrase <+: words.drop n ∧ ¬ words.drop n <+: phrase

instance [DecidableEq α] (phrase words : List α) : Decidable (Separates phrase words) :=
  inferInstanceAs (Decidable (_ ∧ _))

variable {phrase words l r : List α}

namespace Separates

theorem not_reaches (h : Separates phrase words) {begun rest post : List α}
    (hphrase : phrase = begun ++ rest) (hrest : rest ≠ [])
    (hq : words ++ r = rest ++ post) : False := by
  have hlength : begun.length < phrase.length := by
    rw [hphrase, List.length_append]
    exact Nat.lt_add_of_pos_right (List.length_pos_of_ne_nil hrest)
  have hdrop : phrase.drop begun.length = rest := by
    rw [hphrase, List.drop_left]
  obtain ⟨hends, hcovers⟩ := h.1 begun.length hlength
  rw [hdrop] at hends hcovers
  rcases List.prefix_or_prefix_of_prefix ⟨r, hq⟩ ⟨post, rfl⟩ with hp | hp
  · exact hcovers hp
  · exact hends hp

theorem not_begins (h : Separates phrase words) {before rest post : List α}
    (hwords : words = before ++ rest) (hrest : rest ≠ [])
    (hq : phrase ++ post = rest ++ r) : False := by
  have hlength : before.length < words.length := by
    rw [hwords, List.length_append]
    exact Nat.lt_add_of_pos_right (List.length_pos_of_ne_nil hrest)
  have hdrop : words.drop before.length = rest := by
    rw [hwords, List.drop_left]
  obtain ⟨hholds, hcovered⟩ := h.2 before.length hlength
  rw [hdrop] at hholds hcovered
  rcases List.prefix_or_prefix_of_prefix ⟨post, hq⟩ ⟨r, rfl⟩ with hp | hp
  · exact hholds hp
  · exact hcovered hp

/-- **What is on either side of such words is looked at by itself.** -/
theorem infix_sides (h : Separates phrase words) (hin : phrase <:+: l ++ words ++ r) :
    phrase <:+: l ∨ phrase <:+: r := by
  obtain ⟨pre, post, hq⟩ := hin
  rw [List.append_assoc, List.append_assoc] at hq
  rcases List.append_eq_append_iff.mp hq with ⟨before, hl, hq⟩ | ⟨before, hpre, hq⟩
  · -- it begins in `l`
    rcases List.append_eq_append_iff.mp hq with ⟨rest, hbefore, _⟩ | ⟨rest, hphrase, hq⟩
    · refine Or.inl ⟨pre, rest, ?_⟩
      rw [hl, hbefore, List.append_assoc]
    · by_cases hrest : rest = []
      · refine Or.inl ⟨pre, [], ?_⟩
        rw [hl, hphrase, hrest]
        simp
      · exact (h.not_reaches hphrase hrest hq).elim
  · rcases List.append_eq_append_iff.mp hq with ⟨rest, hbefore, hr⟩ | ⟨rest, hwords, hq⟩
    · refine Or.inr ⟨rest, post, ?_⟩
      rw [hr, List.append_assoc]
    · by_cases hrest : rest = []
      · refine Or.inr ⟨[], post, ?_⟩
        rw [List.nil_append, hq, hrest, List.nil_append]
      · exact (h.not_begins hwords hrest hq).elim

theorem infix_sides_iff (h : Separates phrase words) :
    phrase <:+: l ++ words ++ r ↔ phrase <:+: l ∨ phrase <:+: r := by
  refine ⟨h.infix_sides, ?_⟩
  rintro (hl | hr)
  · exact List.infix_append_of_infix_left (List.infix_append_of_infix_left hl)
  · exact List.infix_append_of_infix_right hr

/-- Of a text that begins with such words, only the rest matters. -/
theorem infix_right_iff (h : Separates phrase words) (hne : phrase ≠ []) :
    phrase <:+: words ++ r ↔ phrase <:+: r := by
  have hsides := h.infix_sides_iff (l := []) (r := r)
  rw [List.nil_append] at hsides
  rw [hsides]
  exact or_iff_right fun hnil => hne (List.infix_nil.mp hnil)

/-- Of a text that ends with such words, only what comes before them matters. -/
theorem infix_left_iff (h : Separates phrase words) (hne : phrase ≠ []) :
    phrase <:+: l ++ words ↔ phrase <:+: l := by
  have hsides := h.infix_sides_iff (l := l) (r := [])
  rw [List.append_nil] at hsides
  rw [hsides]
  exact or_iff_left fun hnil => hne (List.infix_nil.mp hnil)

end Separates

end Lib
