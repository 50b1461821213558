import InferenceX.Library.TextLines

/-!
# A file to which lines are appended

A write appends the line of an entry with its line feed, or breaks off inside
the line. A broken write spoils at most the next line: what is written whole
onto a clean end is read back, in its order.
-/

set_option autoImplicit false

namespace Library.AppendedLines
open Library.TextLines

/-- What comes of a write: all of it, or the first characters of the line. -/
inductive Write where
  | whole
  | torn (n : ℕ)
  deriving DecidableEq, Repr

def Write.isTorn : Write → Bool
  | .whole => false
  | .torn _ => true

def piece (line : List Char) : Write → List Char
  | .whole => line++['\n']
  | .torn n => line.take n

section Entries
variable {A : Type*} (line : A → List Char)

def contents (ws : List (A × Write)) : List Char := ws.flatMap fun w => piece (line w.1) w.2

def intact : Bool → List (A × Write) → List A
  | _, [] => []
  | clean, (a, .whole)::ws => if clean then a::intact true ws else intact true ws
  | clean, (a, .torn n)::ws => intact (clean && ((line a).take n).isEmpty) ws

theorem contents_whole (a : A) (ws : List (A × Write)) :
    contents line ((a, .whole)::ws) = line a ++ '\n' :: contents line ws :=
  List.append_assoc (line a) ['\n'] _

theorem length_intact (clean : Bool) (ws : List (A × Write)) :
    ws.length ≤ (intact line clean ws).length+2*(ws.countP fun w => w.2.isTorn)+
      (if clean then 0 else 1) := by
  induction ws generalizing clean with
  | nil => exact Nat.zero_le _
  | cons w ws ih =>
    obtain ⟨a, write⟩ := w
    cases write with
    | whole =>
      have hrest := ih true
      rw [intact, List.countP_cons_of_neg (by simp [Write.isTorn])]
      cases clean with
      | true =>
        simp only [if_true, List.length_cons] at hrest ⊢
        omega
      | false =>
        simp only [if_true, Bool.false_eq_true, if_false, List.length_cons] at hrest ⊢
        omega
    | torn n =>
      have hrest := ih (clean && ((line a).take n).isEmpty)
      have hlate : (if (clean && ((line a).take n).isEmpty) = true then 0 else 1) ≤ 1 := by
        split_ifs <;> omega
      rw [intact, List.countP_cons_of_pos (by rfl), List.length_cons]
      omega

section Read
variable (h : ∀ a, ∀ c ∈ line a, isLineBreak c = false)
include h

theorem intact_carried (ws : List (A × Write)) (carried : List Char)
    (hc : ∀ c ∈ carried, isLineBreak c = false) :
    ((intact line carried.isEmpty ws).map line).Sublist
      (splitlines (carried++contents line ws)) := by
  induction ws generalizing carried with
  | nil => exact List.nil_sublist _
  | cons w ws ih =>
    obtain ⟨a, write⟩ := w
    cases write with
    | whole =>
      have hall : ∀ c ∈ carried++line a, isLineBreak c = false :=
        List.forall_mem_append.mpr ⟨hc, h a⟩
      have hlater := ih [] (List.forall_mem_nil _)
      rw [contents_whole, ← List.append_assoc, splitlines_line _ _ hall, intact]
      cases carried with
      | nil => exact hlater.cons_cons (line a)
      | cons c carried => exact hlater.cons _
    | torn n =>
      have hall : ∀ c ∈ carried++(line a).take n, isLineBreak c = false :=
        List.forall_mem_append.mpr ⟨hc, fun c hc => h a c (List.mem_of_mem_take hc)⟩
      have hlater := ih (carried++(line a).take n) hall
      have hempty : (carried++(line a).take n).isEmpty =
          (carried.isEmpty && ((line a).take n).isEmpty) := by
        cases carried <;> rfl
      rw [hempty, List.append_assoc] at hlater
      exact hlater

theorem intact_read (ws : List (A × Write)) :
    ((intact line true ws).map line).Sublist (splitlines (contents line ws)) :=
  intact_carried line h ws [] (List.forall_mem_nil _)

theorem whole_read (ws : List (A × Write)) (hw : ∀ w ∈ ws, w.2 = .whole) :
    splitlines (contents line ws) = ws.map fun w => line w.1 := by
  induction ws with
  | nil => rfl
  | cons w ws ih =>
    obtain ⟨a, write⟩ := w
    obtain ⟨rfl, hrest⟩ := List.forall_mem_cons.mp hw
    rw [contents_whole, splitlines_line _ _ (h a), ih hrest, List.map_cons]

end Read

end Entries

end Library.AppendedLines
