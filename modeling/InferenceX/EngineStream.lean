import InferenceX.ChatSchema
import InferenceX.PythonValues

/-!
# Streamed and collected generation of the vLLM engine

The backend reports the whole text so far with every output. One loop turns
the outputs into chunks: what the text gained since the last output, and a
terminal chunk for a finished one. The streaming method hands the chunks on,
the other one collects them. Timestamps are values of any arithmetic.
-/

set_option autoImplicit false

namespace InferenceX.EngineStream
open Library.JsonText
open InferenceX.PythonValues InferenceX.ChatSchema

structure CompletionOutput where
  text : Option String
  finishReason : Option String
  tokenIds : Option (List ℤ)

structure RequestStateStats (F : Type) where
  queuedTs : Option F
  scheduledTs : Option F
  firstTokenTs : Option F
  lastTokenTs : Option F

structure RequestOutput (F : Type) where
  outputs : List CompletionOutput
  finished : Bool
  promptTokenIds : Option (List ℤ)
  metrics : Option (RequestStateStats F)

/-- What `AsyncLLM.generate` yields, and the exception it then raises, if any. -/
structure Generation (F : Type) where
  outputs : List (RequestOutput F)
  failure : Option PyError

/-- The engine fields these methods read; `printed` shows a computed float,
`described` an exception. -/
structure Backend (F : Type) where
  available : Bool
  modelName : String
  printed : F → FloatText
  described : PyError → String

def idCount : Option (List ℤ) → ℤ
  | some ids => ids.length
  | none => 0

def CompletionOutput.finish (completion : CompletionOutput) : FinishReason :=
  if completion.finishReason = some "stop" ∨ completion.finishReason = none then .stop
  else .length

/-- What a text gained over the one before; a text that is no continuation is new. -/
def gained (previous text : String) : String :=
  if previous.toList.isPrefixOf text.toList then String.ofList (text.toList.drop previous.length)
  else text

section Texts
variable {F : Type}

def outputText (output : RequestOutput F) : Option String :=
  output.outputs.head?.map fun completion => completion.text.getD ""

def texts (outputs : List (RequestOutput F)) : List String := outputs.filterMap outputText

def Extends (a b : String) : Prop := a.toList <+: b.toList

instance (a b : String) : Decidable (Extends a b) :=
  inferInstanceAs (Decidable (a.toList <+: b.toList))

def endText (previous : String) (outputs : List (RequestOutput F)) : String :=
  (texts outputs).getLastD previous

theorem texts_cons (output : RequestOutput F) (rest : List (RequestOutput F))
    (completion : CompletionOutput) (more : List CompletionOutput)
    (h : output.outputs = completion::more) :
    texts (output::rest) = completion.text.getD ""::texts rest := by
  simp [texts, outputText, h]

theorem texts_skip (output : RequestOutput F) (rest : List (RequestOutput F))
    (h : output.outputs = []) : texts (output::rest) = texts rest := by
  simp [texts, outputText, h]

theorem append_gained (previous text : String) (h : Extends previous text) :
    previous++gained previous text = text := by
  obtain ⟨rest, hrest⟩ := h
  have hpre : previous.toList.isPrefixOf text.toList = true :=
    List.isPrefixOf_iff_prefix.mpr ⟨rest, hrest⟩
  rw [gained, if_pos hpre, ← hrest]
  refine String.toList_inj.mp ?_
  simp [← hrest, ← String.length_toList]

end Texts

section Engine
variable {F : Type} [Add F] [Sub F] [Mul F] [OfNat F 1000]

def deriveEngineTiming (b : Backend F) (output : RequestOutput F) : Option EngineTiming :=
  match output.metrics with
  | none => none
  | some m =>
    match m.queuedTs, m.scheduledTs, m.firstTokenTs, m.lastTokenTs with
    | some queued, some scheduled, some first, some last =>
      let prefill := (first-scheduled)*1000
      let decode := (last-first)*1000
      some ⟨b.printed ((scheduled-queued)*1000), b.printed prefill, b.printed decode,
        b.printed (prefill+decode)⟩
    | _, _, _, _ => none

def usageOf (output : RequestOutput F) (completion : CompletionOutput) : ChatCompletionUsage where
  promptTokens := idCount output.promptTokenIds
  completionTokens := idCount completion.tokenIds
  totalTokens := idCount output.promptTokenIds+idCount completion.tokenIds

def deriveTerminalMetadata (b : Backend F) (output : RequestOutput F)
    (completion : CompletionOutput) : FinishReason × ChatCompletionUsage × Option EngineTiming :=
  (completion.finish, usageOf output completion, deriveEngineTiming b output)

def contentChunk (content : String) : ChatStreamChunk := ⟨content, none, none, none⟩

def terminalChunk (b : Backend F) (output : RequestOutput F) (completion : CompletionOutput) :
    ChatStreamChunk :=
  let (finish, usage, timing) := deriveTerminalMetadata b output completion
  ⟨"", some finish, some usage, timing⟩

def outputChunks (b : Backend F) (previous : String) (output : RequestOutput F)
    (completion : CompletionOutput) : List ChatStreamChunk :=
  let chunk := gained previous (completion.text.getD "")
  (if chunk ≠ "" then [contentChunk chunk] else [])++
    (if output.finished then [terminalChunk b output completion] else [])

/-- `async for output in self._llm.generate(...)`, with `previous_text`. -/
def loop (b : Backend F) : String → List (RequestOutput F) → List ChatStreamChunk
  | _, [] => []
  | previous, output::rest =>
    match output.outputs with
    | [] => loop b previous rest
    | completion::_ =>
      outputChunks b previous output completion++loop b (completion.text.getD "") rest

/-- Exceptions of the backend are wrapped; the two signals of the runtime pass. -/
def wrapped (b : Backend F) (e : PyError) : PyError :=
  if e.isException then .runtimeError s!"vLLM streaming generation failed: {b.described e}" else e

def streamChunks (b : Backend F) (g : Generation F) : List ChatStreamChunk × Option PyError :=
  (loop b "" g.outputs, g.failure.map (wrapped b))

def generateStream (b : Backend F) (g : Generation F) : List ChatStreamChunk × Option PyError :=
  if b.available then streamChunks b g
  else ([contentChunk "Streaming not available (vLLM not loaded)"], none)

structure Collected where
  parts : List String
  finish : FinishReason
  usage : Option ChatCompletionUsage
  timing : Option EngineTiming

def Collected.add (acc : Collected) (chunk : ChatStreamChunk) : Collected :=
  let acc := if chunk.content ≠ "" then { acc with parts := acc.parts++[chunk.content] } else acc
  match chunk.finishReason with
  | none => acc
  | some reason =>
    { acc with
      finish := if reason = .length then .length else .stop
      usage := chunk.usage
      timing := chunk.timing }

def collect (chunks : List ChatStreamChunk) : Collected :=
  chunks.foldl Collected.add ⟨[], .stop, none, none⟩

def timedOut (b : Backend F) : PyError :=
  .runtimeError s!"vLLM completion timed out after 300.0s for model={b.modelName}"

/-- `generate`; `expired` says that the timeout fires before the outputs end. -/
def generate (b : Backend F) (g : Generation F) (expired : Bool) :
    Except PyError ChatCompletionResponse :=
  if b.available then
    if expired then .error (timedOut b)
    else
      match streamChunks b g with
      | (_, some e) => .error e
      | (chunks, none) =>
        let collected := collect chunks
        match collected.usage with
        | none => .error (.other "AssertionError")
        | some usage => .ok {
            model := b.modelName
            choices := [⟨0, String.join collected.parts, collected.finish⟩]
            usage := usage
            timing := collected.timing
            resolved := none
            warnings := [] }
  else .error (.runtimeError "vLLM generation failed: vLLM not loaded")

theorem loop_append (b : Backend F) (previous : String) (xs ys : List (RequestOutput F)) :
    loop b previous (xs++ys) = loop b previous xs++loop b (endText previous xs) ys := by
  induction xs generalizing previous with
  | nil => rfl
  | cons output xs ih =>
    rw [List.cons_append, loop, loop]
    cases ho : output.outputs with
    | nil => simp only [ih, endText, texts_skip output xs ho]
    | cons completion more =>
      simp only [ih, endText, texts_cons output xs completion more ho, List.getLastD_cons,
        List.append_assoc]

theorem loop_contents (b : Backend F) (previous : String) (outputs : List (RequestOutput F))
    (hgrow : (previous::texts outputs).IsChain Extends)
    (hopen : ∀ output ∈ outputs, output.finished = true → output.outputs = []) :
    ∃ contents : List String, loop b previous outputs = contents.map contentChunk ∧
      (∀ s ∈ contents, s ≠ "") ∧ previous++String.join contents = endText previous outputs := by
  induction outputs generalizing previous with
  | nil => exact ⟨[], rfl, by simp, by simp [endText, texts]⟩
  | cons output rest ih =>
    have hrest : ∀ o ∈ rest, o.finished = true → o.outputs = [] :=
      fun o ho => hopen o (List.mem_cons_of_mem _ ho)
    rw [loop]
    cases ho : output.outputs with
    | nil =>
      rw [texts_skip output rest ho] at hgrow
      obtain ⟨contents, hloop, hne, hjoin⟩ := ih previous hgrow hrest
      exact ⟨contents, hloop, hne, by rw [hjoin, endText, endText, texts_skip output rest ho]⟩
    | cons completion more =>
      rw [texts_cons output rest completion more ho, List.isChain_cons_cons] at hgrow
      obtain ⟨contents, hloop, hne, hjoin⟩ := ih _ hgrow.2 hrest
      have hunfinished : output.finished = false := by
        by_contra hfin
        simp [hopen output (by simp) (by simpa using hfin)] at ho
      have hgain := append_gained previous _ hgrow.1
      have hend : endText previous (output::rest) = endText (completion.text.getD "") rest := by
        rw [endText, endText, texts_cons output rest completion more ho, List.getLastD_cons]
      simp only [outputChunks, hunfinished, Bool.false_eq_true, if_false, List.append_nil, hloop,
        hend, ← hjoin]
      split_ifs with hempty
      · refine ⟨gained previous (completion.text.getD "")::contents, rfl, ?_, ?_⟩
        · intro s hs
          rcases List.mem_cons.mp hs with rfl | hs
          · exact hempty
          · exact hne s hs
        · rw [String.join_cons, ← String.append_assoc, hgain]
      · refine ⟨contents, rfl, hne, ?_⟩
        rw [not_not.mp hempty, String.append_empty] at hgain
        rw [hgain]

theorem collect_contents (contents : List String) (hne : ∀ s ∈ contents, s ≠ "")
    (acc : Collected) : (contents.map contentChunk).foldl Collected.add acc =
      { acc with parts := acc.parts++contents } := by
  induction contents generalizing acc with
  | nil => simp
  | cons s rest ih =>
    have hs : s ≠ "" := hne s (by simp)
    rw [List.map_cons, List.foldl_cons, ih fun t ht => hne t (by simp [ht])]
    simp [Collected.add, contentChunk, hs]

theorem collect_chunks (b : Backend F) (contents : List String) (hne : ∀ s ∈ contents, s ≠ "")
    (output : RequestOutput F) (completion : CompletionOutput) :
    collect (contents.map contentChunk++[terminalChunk b output completion]) =
      ⟨contents, completion.finish, some (usageOf output completion),
        deriveEngineTiming b output⟩ := by
  have hfinish : (if completion.finish = FinishReason.length then FinishReason.length
      else .stop) = completion.finish := by
    rw [CompletionOutput.finish]
    split_ifs <;> simp_all
  rw [collect, List.foldl_append, collect_contents contents hne]
  simp [Collected.add, terminalChunk, deriveTerminalMetadata, hfinish]

/-- All chunks of outputs whose texts grow and of which only the last one is
finished. -/
theorem loop_terminal (b : Backend F) (before : List (RequestOutput F)) (last : RequestOutput F)
    (completion : CompletionOutput) (more : List CompletionOutput)
    (hlast : last.outputs = completion::more) (hfin : last.finished = true)
    (hopen : ∀ output ∈ before, output.finished = true → output.outputs = [])
    (hgrow : (texts (before++[last])).IsChain Extends) :
    ∃ contents : List String, (∀ s ∈ contents, s ≠ "") ∧
      loop b "" (before++[last]) = contents.map contentChunk++[terminalChunk b last completion] ∧
      String.join contents = completion.text.getD "" := by
  have hall : (""::texts (before++[last])).IsChain Extends :=
    List.IsChain.cons hgrow fun t _ => List.nil_prefix
  have hone : texts [last] = [completion.text.getD ""] := texts_cons last [] completion more hlast
  rw [texts, List.filterMap_append, ← texts, ← texts, hone, ← List.cons_append,
    List.isChain_append] at hall
  obtain ⟨hbefore, -, hlink⟩ := hall
  obtain ⟨contents, hloop, hne, hjoin⟩ := loop_contents b "" before hbefore hopen
  have hext : Extends (endText "" before) (completion.text.getD "") :=
    hlink _ (by simp [endText, List.getLast?_cons, List.getLastD_eq_getLast?]) _ rfl
  have hgain := append_gained _ _ hext
  rw [String.empty_append] at hjoin
  rw [← hjoin] at hgain
  rw [loop_append, hloop, loop, hlast]
  simp only [outputChunks, hfin, if_true, loop, List.append_nil, ← hjoin]
  split_ifs with hempty
  · refine ⟨contents++[gained (String.join contents) (completion.text.getD "")], ?_, by simp, ?_⟩
    · intro s hs
      rcases List.mem_append.mp hs with hs | hs
      · exact hne s hs
      · exact List.mem_singleton.mp hs ▸ hempty
    · rw [String.join_append, String.join_cons, String.join_nil, String.append_empty, hgain]
  · rw [not_not.mp hempty, String.append_empty] at hgain
    exact ⟨contents, hne, by simp, hgain⟩

/-- On outputs whose texts grow and of which the last one alone is finished and
has a completion, the stream is content and one terminal chunk; its deltas
rebuild the final text, and the response carries that text with the finish
reason, the usage and the timing of the terminal chunk. -/
theorem stream_generate_agree (b : Backend F) (havailable : b.available = true)
    (before : List (RequestOutput F)) (last : RequestOutput F) (completion : CompletionOutput)
    (more : List CompletionOutput) (hlast : last.outputs = completion::more)
    (hfin : last.finished = true)
    (hopen : ∀ output ∈ before, output.finished = true → output.outputs = [])
    (hgrow : (texts (before++[last])).IsChain Extends) :
    let g : Generation F := ⟨before++[last], none⟩
    ∃ chunks terminal response, generateStream b g = (chunks++[terminal], none) ∧
      generate b g false = .ok response ∧
      (∀ chunk ∈ chunks, chunk.content ≠ "" ∧ chunk.finishReason = none ∧ chunk.usage = none ∧
        chunk.timing = none) ∧
      terminal.content = "" ∧
      String.join (chunks.map (·.content)) = completion.text.getD "" ∧
      response.choices.map (·.content) = [completion.text.getD ""] ∧
      response.choices.map (some ·.finishReason) = [terminal.finishReason] ∧
      terminal.usage = some response.usage ∧ terminal.timing = response.timing ∧
      response.usage.promptTokens = idCount last.promptTokenIds ∧
      response.usage.completionTokens = idCount completion.tokenIds ∧
      response.usage.totalTokens = response.usage.promptTokens+response.usage.completionTokens := by
  intro g
  obtain ⟨contents, hne, hloop, hjoin⟩ :=
    loop_terminal b before last completion more hlast hfin hopen hgrow
  have hchunks : streamChunks b g =
      (contents.map contentChunk++[terminalChunk b last completion], none) := by
    rw [streamChunks, hloop]
    rfl
  have hgenerate : generate b g false = .ok ⟨b.modelName,
      [⟨0, completion.text.getD "", completion.finish⟩], usageOf last completion,
      deriveEngineTiming b last, none, []⟩ := by
    rw [generate, if_pos havailable, if_neg (by simp), hchunks]
    simp only [collect_chunks b contents hne last completion, hjoin]
  refine ⟨contents.map contentChunk, terminalChunk b last completion, _, ?_, hgenerate, ?_, rfl,
    ?_, rfl, rfl, rfl, rfl, rfl, rfl, rfl⟩
  · rw [generateStream, if_pos havailable, hchunks]
  · intro chunk hmem
    obtain ⟨s, hs, rfl⟩ := List.mem_map.mp hmem
    exact ⟨hne s hs, rfl, rfl, rfl⟩
  · rw [List.map_map]
    exact (congrArg String.join (List.map_id contents)).trans hjoin

/-- An output without completion, a repeated text and a final delta. -/
theorem stream_generate_agree_hello :
    let said (text : String) (finished : Bool) : RequestOutput ℤ :=
      ⟨[⟨some text, if finished then some "stop" else none, some [1, 2]⟩], finished, some [7], none⟩
    let b : Backend ℤ := ⟨true, "m", fun _ => .short 0 0, fun _ => ""⟩
    let outputs := [said "Hello" false, ⟨[], false, none, none⟩, said "Hello" false,
      said "Hello world" true]
    ∃ chunks terminal response, generateStream b ⟨outputs, none⟩ = (chunks++[terminal], none) ∧
      generate b ⟨outputs, none⟩ false = .ok response ∧
      String.join (chunks.map (·.content)) = "Hello world" ∧
      terminal.usage = some response.usage := by
  intro said b outputs
  obtain ⟨chunks, terminal, response, hs, hg, -, -, hj, -, -, hu, -⟩ :=
    stream_generate_agree b rfl
      [said "Hello" false, ⟨[], false, none, none⟩, said "Hello" false]
      (said "Hello world" true) _ [] rfl rfl (by simp [said])
      (by decide)
  exact ⟨chunks, terminal, response, hs, hg, hj, hu⟩

end Engine

end InferenceX.EngineStream
