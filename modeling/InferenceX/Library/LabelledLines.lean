import Mathlib

/-!
# Records in labelled lines

A record is a label and a text; the text may run over several lines, and only
its first one carries the label. A reader that starts a record at every
labelled line gets the records back exactly where no later line of a text
looks labelled.
-/

set_option autoImplicit false

namespace Library.LabelledLines
variable {A : Type*}

section Joined
variable (s : A)

theorem intercalate_concat (parts : List (List A)) (last : List A) :
    [s].intercalate (parts++[last]) = parts.flatMap (·++[s])++last := by
  induction parts with
  | nil => simp [List.intercalate]
  | cons p parts ih =>
    have hne : parts++[last] ≠ [] := by simp
    obtain ⟨q, rest, hq⟩ := List.exists_cons_of_ne_nil hne
    rw [List.cons_append, hq, List.intercalate, List.intersperse_cons_cons, List.flatten_cons,
      List.flatten_cons, ← List.intercalate, ← hq, ih]
    simp

variable [DecidableEq A]

theorem splitOn_append_cons (xs ys : List A) :
    (xs++s::ys).splitOn s = xs.splitOn s++ys.splitOn s :=
  List.splitOnP_append_cons xs ys (by simp)

theorem splitOn_parts (parts : List (List A)) (last : List A) :
    (parts.flatMap (·++[s])++last).splitOn s =
      parts.flatMap (List.splitOn s)++last.splitOn s := by
  induction parts with
  | nil => rfl
  | cons p parts ih =>
    have hassoc : (p::parts).flatMap (·++[s])++last = p++s::(parts.flatMap (·++[s])++last) := by
      simp
    rw [hassoc, splitOn_append_cons, ih, List.flatMap_cons, List.append_assoc]

theorem not_mem_of_mem_splitOn (xs part : List A) (h : part ∈ xs.splitOn s) : s ∉ part := by
  induction xs generalizing part with
  | nil =>
    obtain rfl : part = [] := by simpa using h
    exact List.not_mem_nil
  | cons x xs ih =>
    rw [List.splitOn, List.splitOnP_cons_eq_if_modifyHead, ← List.splitOn] at h
    split_ifs at h with hx
    · rcases List.mem_cons.mp h with rfl | h
      · exact List.not_mem_nil
      · exact ih part h
    · obtain ⟨first, later, hsplit⟩ := List.exists_cons_of_ne_nil (List.splitOn_ne_nil s xs)
      rw [hsplit, List.modifyHead_cons] at h
      rw [hsplit] at ih
      rcases List.mem_cons.mp h with rfl | h
      · have hne : x ≠ s := by simpa using hx
        exact List.not_mem_cons_of_ne_of_not_mem hne.symm (ih first List.mem_cons_self)
      · exact ih part (List.mem_cons_of_mem _ h)

theorem splitOn_front (front text : List A) (h : s ∉ front) : ∃ first later,
    text.splitOn s = first::later ∧ (front++text).splitOn s = (front++first)::later := by
  induction front with
  | nil =>
    obtain ⟨first, later, hsplit⟩ := List.exists_cons_of_ne_nil (List.splitOn_ne_nil s text)
    exact ⟨first, later, hsplit, hsplit⟩
  | cons a front ih =>
    obtain ⟨first, later, hsplit, hfront⟩ := ih fun hs => h (List.mem_cons_of_mem a hs)
    have ha : (a == s) = false := by
      rw [beq_eq_false_iff_ne]
      rintro rfl
      exact h List.mem_cons_self
    refine ⟨first, later, hsplit, ?_⟩
    rw [List.cons_append, List.splitOn, List.splitOnP_cons_eq_if_modifyHead, ← List.splitOn,
      hfront, ha]
    rfl

end Joined

structure Labelling (L : Type*) (A : Type*) where
  separator : A
  label : L → List A
  read : List A → Option (L × List A)
  plain : ∀ l, separator ∉ label l
  read_label : ∀ l rest, read (label l++rest) = some (l, rest)
  of_read : ∀ line l rest, read line = some (l, rest) → line = label l++rest

section Records
variable {L : Type*} (F : Labelling L A)

def Labelling.group : List (List A) → List (List A) × List (L × List A)
  | [] => ([], [])
  | line::rest =>
    let (unlabelled, records) := Labelling.group rest
    match F.read line with
    | some (l, first) => ([], (l, [F.separator].intercalate (first::unlabelled))::records)
    | none => (line::unlabelled, records)

theorem group_unlabelled (lines rest : List (List A)) (h : ∀ line ∈ lines, F.read line = none) :
    F.group (lines++rest) = (lines++(F.group rest).1, (F.group rest).2) := by
  induction lines with
  | nil => rfl
  | cons line lines ih =>
    obtain ⟨hline, hlines⟩ := List.forall_mem_cons.mp h
    rw [List.cons_append, Labelling.group, hline, ih hlines]
    rfl

theorem group_labelled (l : L) (first : List A) (rest : List (List A)) :
    F.group ((F.label l++first)::rest) =
      ([], (l, [F.separator].intercalate (first::(F.group rest).1))::(F.group rest).2) := by
  rw [Labelling.group, F.read_label]

theorem group_length (lines : List (List A)) :
    (F.group lines).2.length = lines.countP fun line => (F.read line).isSome := by
  induction lines with
  | nil => rfl
  | cons line lines ih =>
    rw [Labelling.group, List.countP_cons]
    cases hread : F.read line with
    | none => simpa using ih
    | some r => simpa using ih

variable [DecidableEq A]

def Labelling.part (r : L × List A) : List A := F.label r.1++r.2

def Labelling.lines (records : List (L × List A)) : List (List A) :=
  records.flatMap fun r => (F.part r).splitOn F.separator

def Labelling.Clean (text : List A) : Prop :=
  ∀ line ∈ (text.splitOn F.separator).tail, F.read line = none

theorem lines_cons (r : L × List A) (records : List (L × List A)) : ∃ first later,
    r.2.splitOn F.separator = first::later ∧
      F.lines (r::records) = (F.label r.1++first)::(later++F.lines records) := by
  obtain ⟨first, later, hsplit, hfront⟩ := splitOn_front F.separator (F.label r.1) r.2 (F.plain r.1)
  refine ⟨first, later, hsplit, ?_⟩
  rw [Labelling.lines, List.flatMap_cons, Labelling.part, hfront]
  rfl

/-- The labelled lines are those of the records and those that only look so. -/
theorem labelled_count (records : List (L × List A)) :
    (F.lines records).countP (fun line => (F.read line).isSome) = records.length+
      (records.map fun r => ((r.2.splitOn F.separator).tail.countP
        fun line => (F.read line).isSome)).sum := by
  induction records with
  | nil => rfl
  | cons r records ih =>
    obtain ⟨first, later, hsplit, hlines⟩ := lines_cons F r records
    rw [hlines, List.countP_cons, List.countP_append, ih, F.read_label]
    simp only [Option.isSome_some, if_true, List.length_cons, List.map_cons, List.sum_cons,
      hsplit, List.tail_cons]
    omega

theorem group_lines_iff (records : List (L × List A)) :
    F.group (F.lines records) = ([], records) ↔ ∀ r ∈ records, F.Clean r.2 := by
  constructor
  · intro h r hr line hline
    have hlength := group_length F (F.lines records)
    rw [h, labelled_count] at hlength
    have hsum : (records.map fun r => ((r.2.splitOn F.separator).tail.countP
        fun line => (F.read line).isSome)).sum = 0 := by
      dsimp only at hlength
      omega
    have hzero := List.sum_eq_zero_iff.mp hsum _ (List.mem_map_of_mem hr)
    have hnone := List.countP_eq_zero.mp hzero line hline
    simpa using hnone
  · intro h
    induction records with
    | nil => rfl
    | cons r records ih =>
      obtain ⟨hr, hrecords⟩ := List.forall_mem_cons.mp h
      obtain ⟨first, later, hsplit, hlines⟩ := lines_cons F r records
      have hlater : ∀ line ∈ later, F.read line = none := by
        rwa [Labelling.Clean, hsplit] at hr
      have htext : [F.separator].intercalate (first::later) = r.2 := by
        rw [← hsplit, List.intercalate_splitOn]
      rw [hlines, group_labelled, group_unlabelled F later _ hlater, ih hrecords]
      simp only [List.append_nil, htext]

/-- Any lines are the unlabelled ones in front and a row of clean records. -/
theorem lines_group (lines : List (List A)) (h : ∀ line ∈ lines, F.separator ∉ line) :
    (F.group lines).1++F.lines (F.group lines).2 = lines ∧
      (∀ line ∈ (F.group lines).1, F.read line = none) ∧
      ∀ r ∈ (F.group lines).2, F.Clean r.2 := by
  induction lines with
  | nil => exact ⟨rfl, by simp [Labelling.group], by simp [Labelling.group]⟩
  | cons line lines ih =>
    obtain ⟨hline, hlines⟩ := List.forall_mem_cons.mp h
    obtain ⟨hjoin, hnone, hclean⟩ := ih hlines
    rw [Labelling.group]
    cases hread : F.read line with
    | none =>
      refine ⟨?_, List.forall_mem_cons.mpr ⟨hread, hnone⟩, hclean⟩
      rw [List.cons_append, hjoin]
    | some r =>
      obtain ⟨l, first⟩ := r
      have hfront := F.of_read line l first hread
      have hparts : ∀ part ∈ first::(F.group lines).1, F.separator ∉ part := by
        refine List.forall_mem_cons.mpr ⟨fun hs => hline ?_, fun part hpart => hlines part ?_⟩
        · rw [hfront]
          exact List.mem_append_right _ hs
        · rw [← hjoin]
          exact List.mem_append_left _ hpart
      have hsplit := List.splitOn_intercalate F.separator hparts (List.cons_ne_nil _ _)
      refine ⟨?_, by simp, List.forall_mem_cons.mpr ⟨?_, hclean⟩⟩
      · obtain ⟨f, later, hs, hl⟩ := lines_cons F
          (l, [F.separator].intercalate (first::(F.group lines).1)) (F.group lines).2
        dsimp only at hs hl
        rw [hsplit] at hs
        obtain ⟨rfl, rfl⟩ := List.cons.inj hs
        rw [List.nil_append, hl, hjoin, ← hfront]
      · rw [Labelling.Clean]
        dsimp only
        rw [hsplit]
        exact hnone

end Records

end Library.LabelledLines
