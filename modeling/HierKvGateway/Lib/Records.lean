import HierKvGateway.Lib.Lines

/-!
# Lib.Records — a text that is appended to, record by record

Every record is ended by a separator that does not occur in it. Whoever reads the text while it is
written, or after the writer has stopped anywhere, sees the records that are ended and the beginning
of another one.

`Records.ended_prefix`: an initial part of a text has an initial part of its records.
`Records.ended_append`: what is appended continues the record that was not ended.
-/

namespace Records

open Lines

variable {α : Type*} [DecidableEq α] {sep : α}

/-- The records that are ended. -/
def ended (sep : α) (text : List α) : List (List α) := (text.splitOn sep).dropLast

/-- What follows the last separator. -/
def torn (sep : α) (text : List α) : List α := (text.splitOn sep).getLastD []

theorem ended_of_notMem {l : List α} (hl : sep ∉ l) : ended sep l = [] := by
  unfold ended
  rw [List.splitOn_eq_singleton hl]
  rfl

theorem torn_of_notMem {l : List α} (hl : sep ∉ l) : torn sep l = l := by
  unfold torn
  rw [List.splitOn_eq_singleton hl]
  rfl

/-- The first record is read first. -/
theorem ended_record {l : List α} (hl : sep ∉ l) (more : List α) :
    ended sep (l ++ sep :: more) = l :: ended sep more := by
  unfold ended
  rw [List.splitOn_append_cons_self_of_not_mem hl,
    List.dropLast_cons_of_ne_nil (List.splitOn_ne_nil sep more)]

theorem torn_record {l : List α} (hl : sep ∉ l) (more : List α) :
    torn sep (l ++ sep :: more) = torn sep more := by
  unfold torn
  rw [List.splitOn_append_cons_self_of_not_mem hl, List.getLastD_cons, List.getLastD_eq_getLast?,
    List.getLastD_eq_getLast?, List.getLast?_eq_some_getLast (List.splitOn_ne_nil sep more)]
  rfl

/-- The records of a text are those it was put together from. -/
theorem ended_unlines {ls : List (List α)} (h : ∀ l ∈ ls, sep ∉ l) :
    ended sep (unlines sep ls) = ls := by
  induction ls with
  | nil => exact ended_of_notMem List.not_mem_nil
  | cons l ls ih =>
    have htext : unlines sep (l :: ls) = l ++ sep :: unlines sep ls := by
      unfold unlines
      rw [List.flatMap_cons, List.append_assoc, List.singleton_append]
    rw [htext, ended_record (h l List.mem_cons_self),
      ih fun l' hl' => h l' (List.mem_cons_of_mem l hl')]

/-- What is appended continues the record that is not ended. -/
theorem ended_append (text more : List α) :
    ended sep (text ++ more) = ended sep text ++ ended sep (torn sep text ++ more) := by
  induction text using line_induction with
  | hlast l hl => rw [ended_of_notMem hl, torn_of_notMem hl, List.nil_append]
  | hline l text hl ih =>
    rw [List.append_assoc, List.cons_append, ended_record hl, ended_record hl, torn_record hl, ih,
      List.cons_append]

/-- An initial part of a text has an initial part of the records. -/
theorem ended_prefix {text whole : List α} (h : text <+: whole) :
    ended sep text <+: ended sep whole := by
  rcases h with ⟨more, rfl⟩
  rw [ended_append]
  exact List.prefix_append _ _

end Records
