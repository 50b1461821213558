import InferenceX.BenchmarkSchemas
import InferenceX.Library.CharClasses
import InferenceX.Library.JsonPrintable
import InferenceX.Library.KeyedWrites
import InferenceX.Library.Utf8Text

/-!
# The store of benchmark results

A result is saved in a file named after its model and time stamp, and reading
the directory gives back what every file holds. The text of a file is read
back exactly, and the names tell time stamps apart. They do not tell all
model names apart: what is no word character, dot or hyphen becomes an
underscore, and the later of two results under one name replaces the earlier.
-/

set_option autoImplicit false

namespace InferenceX.ResultStore
open Library.JsonText Library.CharClasses Library.KeyedWrites Library.Utf8Text
open InferenceX.BenchmarkSchemas

def padded : ℕ → ℕ → List Char
  | 0, _ => []
  | width+1, n => padded width (n/10)++[Nat.digitChar (n%10)]

structure Moment where
  year : Fin 10000
  month : Fin 13
  day : Fin 32
  hour : Fin 24
  minute : Fin 60
  second : Fin 60
  microsecond : Fin 1000000
  deriving DecidableEq, Repr

def Moment.date (m : Moment) : List Char :=
  padded 4 m.year++ '-'::padded 2 m.month++ '-'::padded 2 m.day

/-- `.isoformat()`: a whole second has no fraction. -/
def Moment.isoformat (m : Moment) : List Char :=
  m.date++ 'T'::padded 2 m.hour++ ':'::padded 2 m.minute++ ':'::padded 2 m.second++
    (if m.microsecond.val = 0 then [] else '.'::padded 6 m.microsecond)++"+00:00".toList

/-- A time stamp `datetime.now(timezone.utc).isoformat()` can give. -/
def FromRunner (timestamp : String) : Prop := ∃ m : Moment, timestamp.toList = m.isoformat

/-- `text.replace(old, new)` for single characters. -/
def replaceChar (old new : Char) (text : List Char) : List Char :=
  text.map fun c => if c = old then new else c

/-- `timestamp.replace(":", "-").replace("+", "").replace(".", "-")`. -/
def fileStamp (timestamp : List Char) : List Char :=
  replaceChar '.' '-' ((replaceChar ':' '-' timestamp).filter fun c => c ≠ '+')

section Names
variable (k : CharTable)

/-- `re.sub(r"[^\w.\-]", "_", model_name)`. -/
def safeModel (modelName : List Char) : List Char :=
  modelName.map fun c => if k.word c || c == '.' || c == '-' then c else '_'

def namePrefix : List Char := "results-".toList
def nameSuffix : List Char := ".json".toList

def fileName (r : BenchmarkResult) : List Char :=
  namePrefix++(safeModel k r.modelName.toList++('-'::fileStamp r.timestamp.toList++nameSuffix))

end Names

/-- The files of a directory, under distinct names, with their bytes. -/
abbrev Directory := List (List Char × List UInt8)

/-- `json.dumps(result.model_dump(), indent=2, ensure_ascii=False)`. -/
def fileText (r : BenchmarkResult) : List Char := print (indented 2) plainEscape 0 r.dump

def save (k : CharTable) (dir : Directory) (r : BenchmarkResult) : Directory :=
  put (fileName k r, encode (fileText r)) dir

def universalNewlines : List Char → List Char
  | '\r':: '\n'::rest => '\n'::universalNewlines rest
  | c::rest => (if c = '\r' then '\n' else c)::universalNewlines rest
  | [] => []

/-- `BenchmarkResult.model_validate(json.loads(p.read_text(encoding="utf-8")))`. -/
def readResult (V : Validator) (bytes : List UInt8) : Option BenchmarkResult := do
  let text ← decode bytes
  let data ← loads (universalNewlines text)
  validateResult V data

/-- The pattern `results-*.json`. -/
def isResultName (name : List Char) : Bool :=
  namePrefix.isPrefixOf name && nameSuffix.isSuffixOf name &&
    namePrefix.length+nameSuffix.length ≤ name.length

def nameLe : List Char → List Char → Bool
  | [], _ => true
  | _::_, [] => false
  | a::as, b::bs => if a = b then nameLe as bs else a.toNat < b.toNat

def allResults (V : Validator) (dir : Directory) : List BenchmarkResult :=
  ((dir.filter fun f => isResultName f.1).insertionSort fun f g => nameLe f.1 g.1).filterMap
    fun f => readResult V f.2

theorem universalNewlines_self (text : List Char) (h : ∀ c ∈ text, c ≠ '\r') :
    universalNewlines text = text := by
  induction text with
  | nil => rfl
  | cons c rest ih =>
    have hc := h c (by simp)
    rw [universalNewlines, if_neg hc, ih fun d hd => h d (by simp [hd])]
    rintro more rfl
    exact absurd rfl hc

theorem readResult_saved (V : Validator) (r : BenchmarkResult) :
    readResult V (encode (fileText r)) = some r := by
  have hlines : universalNewlines (fileText r) = fileText r := by
    refine universalNewlines_self _ fun c hc => ?_
    rcases print_indented 2 r.dump c hc with rfl | hc
    · decide
    · rintro rfl
      exact absurd hc (by decide)
  have hread : loads (fileText r) = some r.dump := loads_print (indented 2) plainEscaping 0 r.dump
  rw [readResult, decode_encode]
  simp only [Option.bind_eq_bind, Option.bind_some, hlines, hread, validateResult_dump]

theorem padded_digits (width n : ℕ) : ∀ c ∈ padded width n, c.isDigit = true := by
  induction width generalizing n with
  | zero => exact List.forall_mem_nil _
  | succ width ih =>
    have hlast := digitChar_isDigit ⟨n%10, Nat.mod_lt n (by decide)⟩
    exact List.forall_mem_append.mpr ⟨ih (n/10), List.forall_mem_singleton.mpr hlast⟩

theorem fileStamp_append (s t : List Char) : fileStamp (s++t) = fileStamp s++fileStamp t := by
  simp [fileStamp, replaceChar]

theorem fileStamp_digits (text : List Char) (h : ∀ c ∈ text, c.isDigit = true) :
    fileStamp text = text := by
  induction text with
  | nil => rfl
  | cons c text ih =>
    have hc := h c (by simp)
    have hone : fileStamp [c] = [c] := by
      have hcolon : c ≠ ':' := by rintro rfl; cases hc
      have hplus : c ≠ '+' := by rintro rfl; cases hc
      have hdot : c ≠ '.' := by rintro rfl; cases hc
      simp [fileStamp, replaceChar, hcolon, hplus, hdot]
    rw [← List.singleton_append, fileStamp_append, hone, ih fun d hd => h d (by simp [hd])]

def restore (stamp : List Char) : List Char :=
  stamp.take 13++ ':'::(stamp.drop 14).take 2++ ':'::(stamp.drop 17).take 2++
    (if stamp.length = 24 then [] else '.'::(stamp.drop 20).take 6)++"+00:00".toList

theorem fileStamp_isoformat (m : Moment) : fileStamp m.isoformat =
    m.date++ 'T'::padded 2 m.hour++ '-'::padded 2 m.minute++ '-'::padded 2 m.second++
      (if m.microsecond.val = 0 then [] else '-'::padded 6 m.microsecond)++"00-00".toList := by
  have hnum : ∀ width n, fileStamp (padded width n) = padded width n :=
    fun width n => fileStamp_digits _ (padded_digits width n)
  have hpart : ∀ c width n, fileStamp (c::padded width n) = fileStamp [c]++padded width n :=
    fun c width n => (fileStamp_append [c] _).trans (congrArg (fileStamp [c]++·) (hnum width n))
  have hcolon : fileStamp [':'] = ['-'] := rfl
  have hdash : fileStamp ['-'] = ['-'] := rfl
  have hdot : fileStamp ['.'] = ['-'] := rfl
  have hletter : fileStamp ['T'] = ['T'] := rfl
  have hnil : fileStamp [] = [] := rfl
  have hzone : fileStamp "+00:00".toList = "00-00".toList := by decide
  rw [Moment.isoformat, Moment.date]
  split_ifs
  · simp only [fileStamp_append, hpart, hnum, hcolon, hdash, hletter, hnil, hzone]
    simp
  · simp only [fileStamp_append, hpart, hnum, hcolon, hdash, hdot, hletter, hzone]
    simp

theorem restore_isoformat (m : Moment) : restore (fileStamp m.isoformat) = m.isoformat := by
  rw [fileStamp_isoformat]
  rw [Moment.isoformat]
  split_ifs
  · rfl
  · rfl

/-- A file stamp starts with a year and a month, and has one of two lengths. -/
theorem fileStamp_shape (m : Moment) : ∃ a b c d e f rest,
    fileStamp m.isoformat = a::b::c::d:: '-'::e::f::rest ∧ f.isDigit = true ∧
      (rest.length = 17 ∨ rest.length = 24) := by
  have hmonth := padded_digits 2 m.month
  rw [fileStamp_isoformat]
  split_ifs
  · exact ⟨_, _, _, _, _, _, _, rfl, hmonth _ (by simp [padded]), Or.inl rfl⟩
  · exact ⟨_, _, _, _, _, _, _, rfl, hmonth _ (by simp [padded]), Or.inr rfl⟩

/-- A hyphen stands before the file stamp, and no longer stamp has one there. -/
theorem stamp_longer (s t : List Char) (m n : Moment)
    (hm : (fileStamp m.isoformat).length < (fileStamp n.isoformat).length)
    (h : s++ '-'::fileStamp m.isoformat = t++ '-'::fileStamp n.isoformat) : False := by
  obtain ⟨a, b, c, d, e, f, rest, hn, hf, hrest⟩ := fileStamp_shape n
  obtain ⟨a', b', c', d', e', f', rest', hm', -, hrest'⟩ := fileStamp_shape m
  rw [hn, hm'] at hm
  simp only [List.length_cons] at hm
  have hlong : rest.length = 24 := by omega
  have hshort : rest'.length = 17 := by omega
  -- both split where the shorter stamp's hyphen stands
  have hsplit : t++ '-'::fileStamp n.isoformat = (t++['-', a, b, c, d, '-', e])++f::rest := by
    rw [hn]
    simp
  rw [hsplit, hm'] at h
  obtain ⟨-, hend⟩ := List.append_inj' h (by simp [hlong, hshort])
  rw [← (List.cons.inj hend).1] at hf
  cases hf

theorem stamp_inj (s t : List Char) (m n : Moment)
    (h : s++ '-'::fileStamp m.isoformat = t++ '-'::fileStamp n.isoformat) :
    s = t ∧ m.isoformat = n.isoformat := by
  rcases lt_trichotomy (fileStamp m.isoformat).length (fileStamp n.isoformat).length
    with hlt | heq | hgt
  · exact (stamp_longer s t m n hlt h).elim
  · obtain ⟨hs, hend⟩ := List.append_inj' h (by simp [heq])
    have hstamp := (List.cons.inj hend).2
    refine ⟨hs, ?_⟩
    rw [← restore_isoformat m, hstamp, restore_isoformat]
  · exact (stamp_longer t s n m hgt h.symm).elim

theorem fileName_inj (k : CharTable) (r q : BenchmarkResult) (hr : FromRunner r.timestamp)
    (hq : FromRunner q.timestamp) :
    fileName k r = fileName k q ↔
      (safeModel k r.modelName.toList, r.timestamp) =
        (safeModel k q.modelName.toList, q.timestamp) := by
  obtain ⟨m, hm⟩ := hr
  obtain ⟨n, hn⟩ := hq
  constructor
  · intro h
    have hbody := List.append_cancel_left h
    simp only [← List.append_assoc] at hbody
    have hstamps := List.append_cancel_right hbody
    rw [hm, hn] at hstamps
    obtain ⟨hmodel, htime⟩ := stamp_inj _ _ m n hstamps
    have hsame : r.timestamp = q.timestamp := String.toList_injective (by rw [hm, hn, htime])
    rw [hmodel, hsame]
  · intro h
    obtain ⟨hmodel, htime⟩ := Prod.mk.inj h
    rw [fileName, fileName, hmodel, htime]

theorem fileName_isResultName (k : CharTable) (r : BenchmarkResult) :
    isResultName (fileName k r) = true := by
  have hstart : namePrefix <+: fileName k r := List.prefix_append _ _
  have hend : nameSuffix <:+ fileName k r := by
    refine ⟨namePrefix++(safeModel k r.modelName.toList++ '-'::fileStamp r.timestamp.toList), ?_⟩
    simp [fileName]
  have hlen : namePrefix.length+nameSuffix.length ≤ (fileName k r).length := by
    simp only [fileName, List.length_append, List.length_cons]
    omega
  rw [isResultName, List.isPrefixOf_iff_prefix.mpr hstart, List.isSuffixOf_iff_suffix.mpr hend]
  simpa using hlen

def written (k : CharTable) (r : BenchmarkResult) : List Char × List UInt8 :=
  (fileName k r, encode (fileText r))

theorem saves_puts (k : CharTable) (results : List BenchmarkResult) :
    results.foldl (save k) [] = puts (results.map (written k)) [] := by
  rw [puts, List.foldl_map]
  rfl

/-- The directory keeps as many files as it is read back in results. -/
theorem allResults_perm (V : Validator) (k : CharTable) (results : List BenchmarkResult) :
    (allResults V (results.foldl (save k) [])).Perm
      ((results.foldl (save k) []).filterMap fun f => readResult V f.2) := by
  have hnames : (results.foldl (save k) []).filter (fun f => isResultName f.1) =
      results.foldl (save k) [] := by
    refine List.filter_eq_self.mpr fun f hf => ?_
    rw [saves_puts] at hf
    rcases mem_puts _ _ f hf with hf | hf
    · obtain ⟨r, -, rfl⟩ := List.mem_map.mp hf
      exact fileName_isResultName k r
    · exact absurd hf List.not_mem_nil
  rw [allResults, hnames]
  exact (List.perm_insertionSort _ _).filterMap _

theorem read_written (V : Validator) (k : CharTable) (results : List BenchmarkResult) :
    ((results.map (written k)).filterMap fun f => readResult V f.2) = results := by
  rw [List.filterMap_map]
  have hread : (fun f => readResult V f.2) ∘ written k = some :=
    funext fun r => readResult_saved V r
  rw [hread, List.filterMap_some]

theorem names_nodup (k : CharTable) (results : List BenchmarkResult)
    (h : ∀ r ∈ results, FromRunner r.timestamp) :
    ((results.map (written k)).map Prod.fst).Nodup ↔
      (results.map fun r => (safeModel k r.modelName.toList, r.timestamp)).Nodup := by
  rw [List.map_map]
  have hinj := fun r hr q hq => fileName_inj k r q (h r hr) (h q hq)
  constructor
  · intro hn
    refine List.Nodup.map_on (fun r hr q hq hpair => ?_) hn.of_map
    exact List.inj_on_of_nodup_map hn hr hq ((hinj r hr q hq).mpr hpair)
  · intro hn
    refine List.Nodup.map_on (fun r hr q hq hname => ?_) hn.of_map
    exact List.inj_on_of_nodup_map hn hr hq ((hinj r hr q hq).mp hname)

/-- The store gives back what was saved, as a multiset, exactly when no two
results agree in their sanitised model name and their time stamp. -/
theorem saved_read_iff (k : CharTable) (V : Validator) (results : List BenchmarkResult)
    (h : ∀ r ∈ results, FromRunner r.timestamp) :
    (allResults V (results.foldl (save k) [])).Perm results ↔
      (results.map fun r => (safeModel k r.modelName.toList, r.timestamp)).Nodup := by
  have hperm := allResults_perm V k results
  rw [saves_puts] at hperm
  rw [← names_nodup k results h, saves_puts]
  constructor
  · intro hall
    by_contra hdup
    have hshort := puts_short (results.map (written k)) [] List.nodup_nil hdup
    have hle := List.length_filterMap_le (fun f => readResult V f.2)
      (puts (results.map (written k)) [])
    have hlen := hperm.symm.trans hall |>.length_eq
    rw [List.length_map, List.length_nil, Nat.zero_add] at hshort
    omega
  · intro hnodup
    rw [puts_fresh _ [] hnodup, List.nil_append, read_written] at hperm
    rwa [puts_fresh _ [] hnodup, List.nil_append]

def sample (modelName : String) : BenchmarkResult where
  modelName := modelName
  suiteVersion := "v1"
  timestamp := "2026-06-08T12:00:00+00:00"
  concurrency := 1
  promptResults := []
  p50LatencyMs := zeroFloat
  p95LatencyMs := zeroFloat
  p99LatencyMs := zeroFloat
  meanThroughputTps := zeroFloat
  vramDeviceOccupiedGib := zeroFloat
  hardware := none
  maxModelLen := none
  vramBudgetExceeded := false
  vramBudgetWarning := none

theorem sample_fromRunner (modelName : String) : FromRunner (sample modelName).timestamp := by
  have hnoon : "2026-06-08T12:00:00+00:00".toList =
      (⟨2026, 6, 8, 12, 0, 0, 0⟩ : Moment).isoformat := by decide
  exact ⟨_, hnoon⟩

theorem saved_read_two :
    (∀ r ∈ [sample "phi-2", sample "llama-3"], FromRunner r.timestamp) ∧
    (allResults strict ([sample "phi-2", sample "llama-3"].foldl (save ascii) [])).Perm
      [sample "phi-2", sample "llama-3"] := by
  have h : ∀ r ∈ [sample "phi-2", sample "llama-3"], FromRunner r.timestamp := by
    simp [sample_fromRunner]
  exact ⟨h, (saved_read_iff ascii strict _ h).mpr (by decide)⟩

/-- A slash and an underscore in a model's name give one file. -/
theorem saved_lost :
    (∀ r ∈ [sample "org/m", sample "org_m"], FromRunner r.timestamp) ∧
    ([sample "org/m", sample "org_m"].map fun r => (r.modelName, r.timestamp)).Nodup ∧
    ¬ (allResults strict ([sample "org/m", sample "org_m"].foldl (save ascii) [])).Perm
      [sample "org/m", sample "org_m"] := by
  refine ⟨by simp [sample_fromRunner], by decide, fun hperm => ?_⟩
  have hone : puts ([sample "org/m", sample "org_m"].map (written ascii)) [] =
      [written ascii (sample "org_m")] := rfl
  have hlen := ((allResults_perm strict ascii _).symm.trans hperm).length_eq
  have hle := List.length_filterMap_le (fun f => readResult strict f.2)
    [written ascii (sample "org_m")]
  rw [saves_puts, hone] at hlen
  rw [hlen] at hle
  exact absurd hle (by decide)

end InferenceX.ResultStore
