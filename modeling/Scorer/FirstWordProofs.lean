import Mathlib.Data.List.TakeWhile

/-! # The first word of a line

    A line that is split at separators has its first word before the first separator
    that follows a letter.

    * `firstWord_of_words`: the first word, and what comes after it;
    * `trimmed_of_words`: the same for a line without the separators at its ends. -/

namespace FirstWord

variable {α : Type} {p : α → Bool} {line word : List α} {words : List (List α)}

/-- The line without the separators at both ends. -/
def trimmed (p : α → Bool) (line : List α) : List α :=
  ((line.dropWhile p).reverse.dropWhile p).reverse

/-- Nothing, or a separator and more. -/
inductive AfterWord (p : α → Bool) : List α → Prop where
  | nothing : AfterWord p []
  | more {sep : α} {rest : List α} : p sep = true → AfterWord p (sep :: rest)

/-- The first part ends at the first separator, or with the line. -/
theorem splitOnP_head {first : List α} {others : List (List α)}
    (h : line.splitOnP p = first :: others) :
    ∃ rest, line = first ++ rest ∧ AfterWord p rest ∧ ∀ a ∈ first, p a = false := by
  induction line generalizing first others with
  | nil =>
      rw [List.splitOnP_nil] at h
      obtain ⟨rfl, -⟩ := List.cons.inj h
      exact ⟨[], rfl, .nothing, fun _ ha => nomatch ha⟩
  | cons c line ih =>
      rw [List.splitOnP_cons_eq_if_modifyHead] at h
      cases hc : p c with
      | true =>
          rw [hc, if_pos rfl] at h
          obtain ⟨rfl, -⟩ := List.cons.inj h
          exact ⟨c :: line, rfl, .more hc, fun _ ha => nomatch ha⟩
      | false =>
          obtain ⟨head, tail, hsplit⟩ :=
            List.exists_cons_of_ne_nil (List.splitOnP_ne_nil p line)
          rw [hc, if_neg Bool.false_ne_true, hsplit] at h
          obtain ⟨rfl, -⟩ := List.cons.inj h
          obtain ⟨rest, hline, hafter, hhead⟩ := ih hsplit
          refine ⟨rest, congrArg _ hline, hafter, fun a ha => ?_⟩
          rcases List.mem_cons.mp ha with rfl | ha
          · exact hc
          · exact hhead a ha

/-- The first part that is not empty starts where the separators end. -/
theorem firstWord_of_words
    (h : (line.splitOnP p).filter (fun part => !part.isEmpty) = word :: words) :
    ∃ rest, line.dropWhile p = word ++ rest ∧ AfterWord p rest ∧ word ≠ [] ∧
      ∀ a ∈ word, p a = false := by
  induction line generalizing word words with
  | nil =>
      rw [List.splitOnP_nil] at h
      exact nomatch h
  | cons c line ih =>
      cases hc : p c with
      | true =>
          rw [List.splitOnP_cons_eq_if_modifyHead, hc, if_pos rfl,
            List.filter_cons_of_neg (by simp)] at h
          rw [List.dropWhile_cons_of_pos hc]
          exact ih h
      | false =>
          obtain ⟨first, others, hsplit⟩ :=
            List.exists_cons_of_ne_nil (List.splitOnP_ne_nil p (c :: line))
          obtain ⟨rest, hline, hafter, hfirst⟩ := splitOnP_head hsplit
          have hne : first ≠ [] := by
            rintro rfl
            cases hafter with
            | nothing => exact nomatch hline
            | more hsep =>
                obtain ⟨rfl, -⟩ := List.cons.inj hline
                exact absurd (hc.symm.trans hsep) Bool.false_ne_true
          rw [hsplit, List.filter_cons_of_pos (by simpa using hne)] at h
          obtain ⟨rfl, -⟩ := List.cons.inj h
          rw [List.dropWhile_cons_of_neg (by rw [hc]; exact Bool.false_ne_true)]
          exact ⟨rest, hline, hafter, hne, hfirst⟩

/-- **THE TRIMMED LINE**: the first word alone, or with a separator and a rest that ends
    in a letter. -/
theorem trimmed_of_words
    (h : (line.splitOnP p).filter (fun part => !part.isEmpty) = word :: words) :
    trimmed p line = word ∨
      ∃ sep rest, trimmed p line = word ++ sep :: rest ∧ p sep = true ∧ rest ≠ [] := by
  obtain ⟨rest, hline, hafter, hne, hword⟩ := firstWord_of_words h
  -- a word has no separator at its end, so trimming leaves it
  have hkept : word.reverse.dropWhile p = word.reverse := by
    obtain ⟨last, init, hlast⟩ := List.exists_cons_of_ne_nil (List.reverse_ne_nil_iff.mpr hne)
    have hmem : last ∈ word := List.mem_reverse.mp (hlast ▸ List.mem_cons_self)
    rw [hlast, List.dropWhile_cons_of_neg (by rw [hword last hmem]; exact Bool.false_ne_true)]
  rw [trimmed, hline, List.reverse_append, List.dropWhile_append]
  cases hrest : rest.reverse.dropWhile p with
  | nil =>
      refine .inl ?_
      rw [List.isEmpty_nil, if_pos rfl, hkept, List.reverse_reverse]
  | cons last init =>
      refine .inr ?_
      have hlast : p last = false := by
        have hhead := List.head_dropWhile_not p (by rw [hrest]; exact List.cons_ne_nil last init)
        simpa [hrest] using hhead
      -- the trimmed rest begins as the rest does, with a separator
      obtain ⟨front, hfront⟩ : ∃ front, rest = (last :: init).reverse ++ front := by
        refine ⟨(rest.reverse.takeWhile p).reverse, ?_⟩
        rw [← List.reverse_append, ← hrest, List.takeWhile_append_dropWhile, List.reverse_reverse]
      obtain ⟨sep, message, hmessage⟩ : ∃ sep message, (last :: init).reverse = sep :: message :=
        List.exists_cons_of_ne_nil (by simp)
      have hsep : p sep = true := by
        rw [hmessage] at hfront
        rw [hfront] at hafter
        cases hafter with
        | more hsep => exact hsep
      refine ⟨sep, message, ?_, hsep, ?_⟩
      · rw [List.isEmpty_cons, if_neg Bool.false_ne_true, List.reverse_append,
          List.reverse_reverse, hmessage]
      · rintro rfl
        have hsingle : last :: init = [sep] := by
          rw [← List.reverse_reverse (last :: init), hmessage]
          rfl
        obtain ⟨rfl, -⟩ := List.cons.inj hsingle
        exact absurd (hlast.symm.trans hsep) Bool.false_ne_true

end FirstWord
