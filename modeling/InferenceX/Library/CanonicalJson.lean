import InferenceX.Library.JsonRoundTrip
import InferenceX.Library.StableSort

/-!
# The canonical text of a JSON value

With sorted members the text of a value depends on the value only, and not on
the order in which its objects were written. Two values without repeated
member names have one canonical text exactly when they are the same value.
-/

set_option autoImplicit false

namespace Library.JsonText
open Library.StableSort

mutual

def sortKeys : Json → Json
  | .arr items => .arr (sortItems items)
  | .obj members => .obj ((sortMembers members).insertionSort fun m n => m.1 ≤ n.1)
  | v => v

def sortItems : List Json → List Json
  | [] => []
  | v::rest => sortKeys v::sortItems rest

def sortMembers : List (String × Json) → List (String × Json)
  | [] => []
  | (k, v)::rest => (k, sortKeys v)::sortMembers rest

end

mutual

def Distinct : Json → Prop
  | .arr items => DistinctItems items
  | .obj members => (members.map Prod.fst).Nodup ∧ DistinctMembers members
  | _ => True

def DistinctItems : List Json → Prop
  | [] => True
  | v::rest => Distinct v ∧ DistinctItems rest

def DistinctMembers : List (String × Json) → Prop
  | [] => True
  | (_, v)::rest => Distinct v ∧ DistinctMembers rest

end

mutual

/-- Values that differ in the order of object members only. -/
inductive Same : Json → Json → Prop
  | null : Same .null .null
  | bool (b : Bool) : Same (.bool b) (.bool b)
  | int (z : ℤ) : Same (.int z) (.int z)
  | float (x : FloatText) : Same (.float x) (.float x)
  | str (s : String) : Same (.str s) (.str s)
  | arr {xs ys : List Json} : SameItems xs ys → Same (.arr xs) (.arr ys)
  | obj {ms ls ns : List (String × Json)} :
      ms.Perm ls → SameMembers ls ns → Same (.obj ms) (.obj ns)

inductive SameItems : List Json → List Json → Prop
  | nil : SameItems [] []
  | cons {v w : Json} {vs ws : List Json} :
      Same v w → SameItems vs ws → SameItems (v::vs) (w::ws)

inductive SameMembers : List (String × Json) → List (String × Json) → Prop
  | nil : SameMembers [] []
  | cons {v w : Json} {ms ns : List (String × Json)} (k : String) :
      Same v w → SameMembers ms ns → SameMembers ((k, v)::ms) ((k, w)::ns)

end

theorem sortMembers_eq_map (ms : List (String × Json)) :
    sortMembers ms = ms.map fun m => (m.1, sortKeys m.2) := by
  induction ms with
  | nil => rfl
  | cons m ms ih => rw [sortMembers, ih, List.map_cons]

theorem sortMembers_names (ms : List (String × Json)) :
    (sortMembers ms).map Prod.fst = ms.map Prod.fst := by
  rw [sortMembers_eq_map, List.map_map]
  exact List.map_congr_left fun _ _ => rfl

theorem distinctMembers_iff (ms : List (String × Json)) :
    DistinctMembers ms ↔ ∀ m ∈ ms, Distinct m.2 := by
  induction ms with
  | nil => simp [DistinctMembers]
  | cons m ms ih => rw [DistinctMembers, ih, List.forall_mem_cons]

theorem perm_of_sorted (ms ns : List (String × Json))
    (h : (sortMembers ms).insertionSort (fun m n => m.1 ≤ n.1) =
      (sortMembers ns).insertionSort fun m n => m.1 ≤ n.1) :
    ∃ ls, ms.Perm ls ∧ sortMembers ls = sortMembers ns := by
  have hperm : (sortMembers ns).Perm (sortMembers ms) :=
    (List.perm_insertionSort _ _).symm.trans (h ▸ List.perm_insertionSort _ _)
  rw [sortMembers_eq_map ms] at hperm
  have hcomp := congrFun (congrFun
    (List.eq_map_comp_perm fun m : String × Json => (m.1, sortKeys m.2)) (sortMembers ns)) ms
  obtain ⟨ls, hns, hms⟩ := hcomp.mpr hperm
  exact ⟨ls, hms.symm, (sortMembers_eq_map ls).trans hns.symm⟩

mutual

theorem same_of_sortKeys (v w : Json) (h : sortKeys v = sortKeys w) : Same v w := by
  match v, w with
  | .null, .null => exact .null
  | .bool b, .bool c => cases h; exact .bool b
  | .int z, .int y => cases h; exact .int z
  | .float x, .float y => cases h; exact .float x
  | .str s, .str t => cases h; exact .str s
  | .arr xs, .arr ys =>
    rw [sortKeys, sortKeys] at h
    exact .arr (sameItems_of_sort xs ys (Json.arr.inj h))
  | .obj ms, .obj ns =>
    rw [sortKeys, sortKeys] at h
    obtain ⟨ls, hperm, hls⟩ := perm_of_sorted ms ns (Json.obj.inj h)
    exact .obj hperm (sameMembers_of_sort ls ns hls)

theorem sameItems_of_sort (vs ws : List Json) (h : sortItems vs = sortItems ws) :
    SameItems vs ws := by
  match vs, ws with
  | [], [] => exact .nil
  | v::vs, w::ws =>
    obtain ⟨hv, hvs⟩ := List.cons.inj h
    exact .cons (same_of_sortKeys v w hv) (sameItems_of_sort vs ws hvs)

theorem sameMembers_of_sort (ms ns : List (String × Json)) (h : sortMembers ms = sortMembers ns) :
    SameMembers ms ns := by
  match ms, ns with
  | [], [] => exact .nil
  | (k, v)::ms, (l, w)::ns =>
    obtain ⟨hm, hms⟩ := List.cons.inj h
    obtain ⟨rfl, hv⟩ := Prod.mk.inj hm
    exact .cons k (same_of_sortKeys v w hv) (sameMembers_of_sort ms ns hms)

end

mutual

theorem sortKeys_of_same {v w : Json} (h : Same v w) (hd : Distinct v) :
    sortKeys v = sortKeys w := by
  match h with
  | .null | .bool b | .int z | .float x | .str s => rfl
  | .arr hitems => rw [sortKeys, sortKeys, sortItems_of_same hitems hd]
  | @Same.obj ms ls ns hperm hmembers =>
    obtain ⟨hnames, hvalues⟩ := hd
    have hvalues' : DistinctMembers ls := by
      rw [distinctMembers_iff] at hvalues ⊢
      exact fun m hm => hvalues m (hperm.mem_iff.mpr hm)
    rw [sortKeys, sortKeys, ← sortMembers_of_same hmembers hvalues']
    congr 1
    apply insertionSort_eq_of_perm Prod.fst
    · rw [sortMembers_eq_map, sortMembers_eq_map]
      exact hperm.map _
    · rwa [sortMembers_names]

theorem sortItems_of_same {vs ws : List Json} (h : SameItems vs ws) (hd : DistinctItems vs) :
    sortItems vs = sortItems ws := by
  match h with
  | .nil => rfl
  | .cons hv hvs =>
    rw [sortItems, sortItems, sortKeys_of_same hv hd.1, sortItems_of_same hvs hd.2]

theorem sortMembers_of_same {ms ns : List (String × Json)} (h : SameMembers ms ns)
    (hd : DistinctMembers ms) : sortMembers ms = sortMembers ns := by
  match h with
  | .nil => rfl
  | .cons k hv hms =>
    rw [sortMembers, sortMembers, sortKeys_of_same hv hd.1, sortMembers_of_same hms hd.2]

end

theorem sortKeys_eq_iff (v w : Json) (hd : Distinct v) : sortKeys v = sortKeys w ↔ Same v w :=
  ⟨same_of_sortKeys v w, fun h => sortKeys_of_same h hd⟩

/-- The text of `ensure_ascii=False` is read back, so it is the text of one value only. -/
theorem dumps_plain_injective : Function.Injective (dumps plainEscape) := by
  intro v w h
  have hread : ∀ u, loads (dumps plainEscape u) = some u := by
    intro u
    rw [← print_compact plainEscape 0 u]
    exact loads_print compact plainEscaping 0 u
  apply Option.some.inj
  rw [← hread v, h, hread w]

/-- The canonical text is that of the value, whatever the order of its members. -/
theorem canonical_eq_iff (v w : Json) (hd : Distinct v) :
    dumps plainEscape (sortKeys v) = dumps plainEscape (sortKeys w) ↔ Same v w :=
  dumps_plain_injective.eq_iff.trans (sortKeys_eq_iff v w hd)

end Library.JsonText
