import InferenceX.InitErrors
import InferenceX.Library.ChunkedFrames
import InferenceX.Library.TextLines

/-!
# Display lines of the loading feed

A line of the server log is shortened to a line of the feed or skipped. Its
patterns are read without going back: what each repetition takes ends where
the next part has to begin. A line of the feed starts with a mark and a blank,
so that none is empty.
-/

set_option autoImplicit false

namespace InferenceX.LogFeed
open Library.CharClasses Library.ChunkedFrames Library.TextLines
open InferenceX.InitErrors InferenceX.PythonValues

/-- `text.startswith(words)`. -/
def starts (words : String) (text : List Char) : Bool := words.toList.isPrefixOf text

/-- `text.split(separator, 1)[-1]`. -/
def behind (separator : String) (text : List Char) : List Char :=
  match splitOnce separator.toList text with
  | some (_, after) => after
  | none => text

/-- `text.split(separator, 1)[0]`. -/
def inFront (separator : String) (text : List Char) : List Char :=
  match splitOnce separator.toList text with
  | some (front, _) => front
  | none => text

/-- `text.split()[0]`. -/
def firstWord (text : List Char) : Except PyError (List Char) :=
  match (text.dropWhile isSpace).takeWhile fun c => !isSpace c with
  | [] => .error .indexError
  | word => .ok word

def upperChar (c : Char) : Char := if c.toNat = 0x131 then 'I' else c.toUpper

/-- `text.upper()`, as far as an ASCII word can tell. -/
def pyUpper (text : List Char) : List Char := text.map upperChar

inductive Level where
  | critical
  | info
  | warning
  | error
  | debug
  deriving DecidableEq, Repr

def Level.text : Level → String
  | .critical => "CRITICAL"
  | .info => "INFO"
  | .warning => "WARNING"
  | .error => "ERROR"
  | .debug => "DEBUG"

def Level.marker : Level → Char
  | .critical => '✗'
  | .error => '✗'
  | .warning => '!'
  | .info => '·'
  | .debug => '·'

def literal (words : String) (text : List Char) : Option (List Char) :=
  if starts words text then some (text.drop words.toList.length) else none

def levelOf (levels : List Level) (text : List Char) : Option (Level × List Char) :=
  levels.findSome? fun l => (literal l.text text).map fun rest => (l, rest)

/-- `(.+)$`, which leaves a line feed at the end. -/
def wholeLine (text : List Char) : Option (List Char) :=
  let line := if text.getLast? = some '\n' then text.dropLast else text
  if line ≠ [] ∧ '\n' ∉ line then some line else none

def dotStops : List Char → List (List Char)
  | [] => [[]]
  | c::rest => (c::rest)::(if c = '\n' then [] else dotStops rest)

section Patterns
variable (k : CharTable)

/-- `\d{n}`. -/
def digitRun : ℕ → List Char → Option (List Char)
  | 0, text => some text
  | n+1, c::rest => if (k.digit c).isSome then digitRun n rest else none
  | _+1, [] => none

/-- `\d{2}:\d{2}:\d{2}` between two blanks and a bracket. -/
def clock (text : List Char) : Option (List Char) := do
  let text ← literal " " text
  let text ← digitRun k 2 text
  let text ← literal ":" text
  let text ← digitRun k 2 text
  let text ← literal ":" text
  let text ← digitRun k 2 text
  literal " [" text

def structuredRe (text : List Char) : Option (Level × List Char) := do
  let text ← digitRun k 4 text
  let text ← literal "-" text
  let text ← digitRun k 2 text
  let text ← literal "-" text
  let text ← digitRun k 2 text
  let text ← clock k text
  let (level, text) ← levelOf [.critical, .info, .warning, .error, .debug] text
  let text ← literal "] " text
  let rest ← wholeLine text
  return (level, rest)

/-- `\(EngineCore pid=\d+\) `. -/
def enginePid (text : List Char) : Option (List Char) := do
  let text ← literal "(EngineCore pid=" text
  let text ← digitRun k 1 text
  literal ") " (text.dropWhile fun c => (k.digit c).isSome)

def vllmRe (text : List Char) : Option (Level × List Char) := do
  let (level, text) ← levelOf [.info, .warning, .error] ((enginePid k text).getD text)
  let text ← literal " " text
  let text ← digitRun k 2 text
  let text ← literal "-" text
  let text ← digitRun k 2 text
  let text ← clock k text
  let source := text.takeWhile fun c => c ≠ ']'
  if source = [] then none
  else do
    let text ← literal "] " (text.drop source.length)
    let msg ← wholeLine text
    return (level, msg)

/-- `Loading engine for model=([^\s(]+)` at the front of a text. -/
def loadingHere (text : List Char) : Option (List Char) := do
  let text ← literal "Loading engine for model=" text
  match text.takeWhile fun c => !isSpace c && c != '(' with
  | [] => none
  | model => some model

/-- `([\d.]+)`. -/
def numeralRun (text : List Char) : Option (List Char × List Char) :=
  let run := text.takeWhile (numeralChar k)
  if run = [] then none else some (run, text.drop run.length)

/-- `words([\d.]+) GiB` at the front of a text. -/
def gibHere (words : String) (text : List Char) : Option (List Char × List Char) := do
  let text ← literal words text
  let (size, text) ← numeralRun k text
  let text ← literal " GiB" text
  return (size, text)

/-- `.*total=([\d.]+) GiB`: the last place that fits. -/
def lastTotal (text : List Char) : Option (List Char) :=
  (dotStops text).reverse.findSome? fun stop => (gibHere k "total=" stop).map Prod.fst

/-- `.*free=([\d.]+) GiB` and the rest of the pattern. -/
def lastFree (text : List Char) : Option (List Char × List Char) :=
  (dotStops text).reverse.findSome? fun stop => do
    let (free, text) ← gibHere k "free=" stop
    let total ← lastTotal k text
    return (free, total)

def gpuMemoryHere (text : List Char) : Option (List Char × List Char × List Char) := do
  let text ← literal "GPU memory for model=" text
  let model := text.takeWhile fun c => c ≠ ':'
  if model = [] then none
  else do
    let text ← literal ": utilization=" (text.drop model.length)
    let (utilization, text) ← numeralRun k text
    let (free, total) ← lastFree k text
    return (utilization, free, total)

/-- The nearest float, the even one of two; nothing for an infinity. -/
def nearestFloat (q : ℚ) : Option ℚ :=
  if q = 0 then some 0
  else
    let scale : ℤ := max (Int.log 2 q-52) (-1074)
    let nearest : ℚ := roundHalfEven (q*2^(-scale))*2^scale
    if nearest < 2^1024 then some nearest else none

/-- `float(run)` on digits and dots. -/
def readFloat (run : List Char) : Except PyError (Option ℚ) :=
  let whole := run.takeWhile fun c => c ≠ '.'
  let fraction := run.drop (whole.length+1)
  if '.' ∈ fraction ∨ whole++fraction = [] then
    let text := stringRepr (String.ofList run)
    .error (.valueError s!"could not convert string to float: {text}")
  else
    let digits := (whole++fraction).map fun c => (k.digit c).getD 0
    .ok (nearestFloat ((ofDigits digits : ℚ)/10^fraction.length))

/-- `int(float(run) * 100)`. -/
def percent (run : List Char) : Except PyError ℤ := do
  match (← readFloat k run).bind fun q => nearestFloat (q*100) with
  | some p => return truncate p
  | none => throw .overflowError

def say (words : String) : Except PyError (Option (List Char)) := .ok (some words.toList)

def shortenLaterMessage (maxLen : ℕ) (message : List Char) : Except PyError (Option (List Char)) :=
  if has "Initializing vLLM engine for model=" message then do
    let model ← firstWord (behind "model=" message)
    return some ("Starting vLLM: ".toList++model)
  else if starts "Loading weights" message then say "Downloading/loading weights…"
  else if starts "CUDA_HOME set" message then say "CUDA toolkit ready"
  else if has "Startup initialization failed:" message then
    .ok (some ((strip (behind "Startup initialization failed:" message)).take maxLen))
  else if starts "vLLM engine ready:" message then do
    let model ← firstWord (behind "model=" message)
    return some ("Engine ready: ".toList++model)
  else if starts "Engine pool ready:" message then say "Engine pool ready"
  else if message = "Application startup complete.".toList then say "Application startup complete"
  else if starts "Uvicorn running on" message then
    .ok (some ("Listening on ".toList++inFront " (" (behind "on " message)))
  else if starts "Application startup failed" message then say "Application startup failed"
  else if starts "Traceback" message then .ok none
  else .ok (some (message.take maxLen))

def shortenLoggerMessage (maxLen : ℕ) (message : List Char) :
    Except PyError (Option (List Char)) :=
  if starts "Started server process" message then say "Server process started"
  else if starts "Waiting for application startup" message then say "Application startup…"
  else if has "Initializing InferenceX" message then say "Starting InferenceX"
  else if starts "Model registry loaded" message then say "Model registry loaded"
  else if starts "Task router ready" message then say "Task router ready"
  else
    match message.tails.findSome? loadingHere, message.tails.findSome? (gpuMemoryHere k) with
    | some model, _ => .ok (some ("Loading engine: ".toList++model))
    | none, some (utilization, free, total) => do
      let utilPct ← percent k utilization
      return some ("GPU ".toList++free++"/".toList++total++
        s!" GiB free (util {utilPct}%)".toList)
    | none, none => shortenLaterMessage maxLen message

def shortenVllmMessage (message : List Char) : Option (List Char) :=
  let took := strip (behind "took" message)
  let value := strip (behind ":" message)
  if has "Starting to load model" message then some "Loading model weights…".toList
  else if has "Loading weights took" message then
    some ("Weights loaded (".toList++took.take 28++[')'])
  else if has "Model loading took" message then
    some ("Model loaded (".toList++took.take 28++[')'])
  else if has "Graph capturing finished" message then some "CUDA graphs ready".toList
  else if has "init engine" message ∧ has "took" message then
    some ("vLLM warmup done (".toList++took.take 22++[')'])
  else if starts "Available KV cache memory:" message then
    if starts "-" value then some ("No KV cache memory (".toList++value++[')'])
    else some ("KV cache ".toList++value.take 30)
  else if has "Using FLASH_ATTN" message then some "Using FlashAttention".toList
  else if has "Resolved architecture:" message then some ("Architecture: ".toList++value)
  else if has "WSL is detected" message then some "WSL detected (pin_memory off)".toList
  else if has "No available memory for the cache blocks" message then
    some "No KV cache memory — increase GPU budget".toList
  else if has "Free memory on device" message then
    match (strip (behind "Free memory on device" message)).take 66 with
    | [] => some "Insufficient GPU memory".toList
    | short => some short
  else none

def sessionMarker : List Char := "--- playground session ---".toList

def skipPrefixes : List String :=
  ["Traceback (most recent call last)", "  File ", "File \"", "    ", "^", "The above exception",
    "During handling"]

def defaultMaxLen : ℕ := 66

def marked (mark : Char) (text : List Char) : List Char := mark :: ' ' :: text

def formatStructured (maxLen : ℕ) (level : Level) (rest : List Char) :
    Except PyError (Option (List Char)) := do
  let message :=
    match splitOnce ": ".toList rest with
    | some (_, c::message) => c::message
    | _ => rest
  let short ← shortenLoggerMessage k maxLen message
  return short.map fun short => (marked level.marker short).take (maxLen+2)

def formatVllm (maxLen : ℕ) (level : Level) (msg : List Char) : Option (List Char) :=
  let short := (shortenVllmMessage msg).filter fun short => short ≠ []
  if level = .error ∨ has "ValueError:" msg then
    some (marked '✗' ((short.getD (strip (behind "ValueError:" msg))).take maxLen))
  else short.map fun short => (marked '·' short).take (maxLen+2)

def formatPlain (maxLen : ℕ) (raw : List Char) : Option (List Char) :=
  if starts "WARNING" (pyUpper raw) then
    let msg := strip (if ':' ∈ raw then behind ":" raw else raw.drop 7)
    some (marked '!' (msg.take maxLen))
  else none

def formatRaw (maxLen : ℕ) (raw : List Char) : Except PyError (Option (List Char)) :=
  if starts "RuntimeError:" raw ∨ starts "ValueError:" raw then
    .ok (some (marked '✗' ((strip (behind ":" raw)).take maxLen)))
  else if has "Loading safetensors checkpoint shards:" raw ∧ has "100%" raw then
    .ok (some (marked '·' "Model weights loaded".toList))
  else if starts "Capturing CUDA graphs" raw ∧ has "100%" raw then
    .ok (some (marked '·' "CUDA graphs captured".toList))
  else if has "Capturing CUDA graphs" raw ∧ has "%|" raw then .ok none
  else
    match structuredRe k raw, vllmRe k raw with
    | some (level, rest), _ => formatStructured k maxLen level rest
    | none, some (level, msg) => .ok (formatVllm maxLen level msg)
    | none, none => .ok (formatPlain maxLen raw)

def formatLogLine (maxLen : ℕ) (line : List Char) : Except PyError (Option (List Char)) :=
  let raw := strip line
  if raw = [] ∨ raw = sessionMarker then .ok none
  else if skipPrefixes.any fun p => starts p raw then .ok none
  else formatRaw k maxLen raw

def Shown (line : List Char) : Prop := ∃ mark ∈ ['✗', '!', '·'], ∃ text, line = marked mark text

theorem level_mark (level : Level) : level.marker ∈ ['✗', '!', '·'] := by
  cases level <;> decide

theorem formatStructured_shown (maxLen : ℕ) (level : Level) (rest line : List Char)
    (h : formatStructured k maxLen level rest = .ok (some line)) : Shown line := by
  obtain ⟨short, -, hline⟩ := bind_ok h
  obtain ⟨text, -, rfl⟩ := Option.map_eq_some_iff.mp (Except.ok.inj hline)
  exact ⟨level.marker, level_mark level, text.take maxLen, rfl⟩

theorem formatVllm_shown (maxLen : ℕ) (level : Level) (msg line : List Char)
    (h : formatVllm maxLen level msg = some line) : Shown line := by
  simp only [formatVllm] at h
  split at h
  · rw [← Option.some.inj h]
    exact ⟨'✗', by simp, _, rfl⟩
  · obtain ⟨text, -, rfl⟩ := Option.map_eq_some_iff.mp h
    exact ⟨'·', by simp, text.take maxLen, rfl⟩

theorem formatPlain_shown (maxLen : ℕ) (raw line : List Char)
    (h : formatPlain maxLen raw = some line) : Shown line := by
  unfold formatPlain at h
  by_cases hwarning : starts "WARNING" (pyUpper raw) = true
  · rw [if_pos hwarning] at h
    exact ⟨'!', by simp, _, (Option.some.inj h).symm⟩
  · rw [if_neg hwarning] at h
    cases h

theorem formatRaw_shown (maxLen : ℕ) (raw line : List Char)
    (h : formatRaw k maxLen raw = .ok (some line)) : Shown line := by
  have hshown : ∀ mark ∈ ['✗', '!', '·'], ∀ text, Except.ok (some (marked mark text)) =
      (Except.ok (some line) : Except PyError (Option (List Char))) → Shown line := by
    intro mark hmark text heq
    exact ⟨mark, hmark, text, (Option.some.inj (Except.ok.inj heq)).symm⟩
  unfold formatRaw at h
  split_ifs at h
  · exact hshown '✗' (by simp) _ h
  · exact hshown '·' (by simp) _ h
  · exact hshown '·' (by simp) _ h
  · cases h
  · split at h
    · exact formatStructured_shown k maxLen _ _ line h
    · exact formatVllm_shown maxLen _ _ line (Except.ok.inj h)
    · exact formatPlain_shown maxLen raw line (Except.ok.inj h)

theorem formatLogLine_shown (maxLen : ℕ) (line shown : List Char)
    (h : formatLogLine k maxLen line = .ok (some shown)) : Shown shown := by
  simp only [formatLogLine] at h
  split_ifs at h
  · cases h
  · cases h
  · exact formatRaw_shown k maxLen (strip line) shown h

theorem formatLogLine_nil (maxLen : ℕ) : formatLogLine k maxLen [] = .ok none := rfl

end Patterns

end InferenceX.LogFeed
