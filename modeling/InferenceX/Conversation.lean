import InferenceX.StreamConsumers

/-!
# The chat client

The client sends all messages of a conversation with every prompt. A prompt
joins the messages before it is answered and stays there when the answer
fails, so the messages are those of a dialogue in which some prompts have no
answer. An answer is the text the engine gave.
-/

set_option autoImplicit false

namespace InferenceX.Conversation
open Library.StepRuns Library.TextLines Library.JsonText
open InferenceX.PythonValues InferenceX.ChatSchema InferenceX.StreamConsumers

def buildChatPayload (messages : List ChatMessage) (model : String) : ChatPayload where
  model := model
  messages := messages
  temperature := some (some (.short 0 7))
  maxTokens := some (some 512)
  topP := none
  stream := some true
  maxContextTokens := none
  maxOutputTokens := none
  priority := none
  streamOptions := none
  seed := none
  strict := none

def shouldSubmitPrompt (prompt : List Char) : Bool := strip prompt ≠ []

def appendTurn (messages : List ChatMessage) (role : Role) (content : String) :
    List ChatMessage :=
  messages++[⟨role, content⟩]

structure MessageBubble where
  role : Role
  content : String
  deriving DecidableEq, Repr

/-- The state of `ChatApp`. While `on_input_submitted` waits for the stream,
`collected` is what it has read so far. -/
structure ChatApp where
  model : Option String
  messages : List ChatMessage
  history : List MessageBubble
  healthy : Bool
  inFlight : Bool
  inputDisabled : Bool
  collected : Option String
  closed : Bool
  deriving DecidableEq, Repr

def ChatApp.start (model : Option String) : ChatApp where
  model := model
  messages := []
  history := []
  healthy := false
  inFlight := false
  inputDisabled := true
  collected := none
  closed := false

inductive Event where
  | selected (model : Option String)
  | loaded (ok healthy : Bool)
  | submitted (value : List Char) (mounted : Bool)
  | token (text : String)
  | ended
  | failed (message : String)
  | raised (e : PyError)
  | newConversation
  | quit
  deriving DecidableEq, Repr

def showLast (history : List MessageBubble) (content : String) : List MessageBubble :=
  history.dropLast++[⟨.assistant, content⟩]

def ChatApp.settle (s : ChatApp) : ChatApp :=
  { s with inFlight := false, inputDisabled := false, collected := none }

def ChatApp.submit (s : ChatApp) (prompt : String) : ChatApp :=
  { s with
    inFlight := true
    inputDisabled := true
    history := s.history++[⟨.user, prompt⟩, ⟨.assistant, ""⟩]
    messages := appendTurn s.messages .user prompt }

def ChatApp.payload (s : ChatApp) : ChatPayload := buildChatPayload s.messages (s.model.getD "")

def step (s : ChatApp) (e : Event) : Option (ChatApp × Option ChatPayload) :=
  if s.closed then none
  else
    match e with
    | .selected model =>
      if s.model.isNone then some ({ s with model := model.filter (· ≠ "") }, none) else none
    | .loaded ok healthy =>
      if s.inputDisabled ∧ ¬ s.inFlight then
        if s.model.getD "" = "" then some ({ s with closed := true }, none)
        else some ({ s with healthy := healthy, inputDisabled := !ok }, none)
      else none
    | .submitted value mounted =>
      -- A disabled input posts nothing of its own; what was posted before waits its turn.
      if s.inputDisabled ∧ ¬ s.inFlight then none
      else if ¬ shouldSubmitPrompt value ∨ s.inFlight then some (s, none)
      else
        let asked := s.submit (String.ofList (strip value))
        if mounted then some ({ asked with collected := some "" }, some asked.payload)
        else some (asked.settle, none)
    | .token text =>
      match s.collected with
      | some collected =>
        if text = "" then none
        else some ({ s with
          collected := some (collected ++ text)
          history := showLast s.history (collected ++ text) }, none)
      | none => none
    | .ended => s.collected.map fun collected =>
      ({ s with messages := appendTurn s.messages .assistant collected }.settle, none)
    | .failed message => s.collected.map fun _ =>
      ({ s with history := showLast s.history ("**Error:** " ++ message) }.settle, none)
    | .raised _ => s.collected.map fun _ => ({ s with closed := true }, none)
    | .newConversation =>
      if s.inFlight then some (s, none) else some ({ s with messages := [], history := [] }, none)
    | .quit => some ({ s with closed := true }, none)

def asking (prompt : String) : ChatMessage := ⟨.user, prompt⟩

def answering (answer : String) : ChatMessage := ⟨.assistant, answer⟩

def promptOf (value : List Char) : String := String.ofList (strip value)

def Prompt (prompt : String) : Prop := ∃ value, strip value ≠ [] ∧ prompt = promptOf value

inductive Change (s t : ChatApp) : Event → Option ChatPayload → Prop where
  | kept (e : Event) (hm : t.messages = s.messages) (hf : t.inFlight = s.inFlight)
      (hc : t.collected.isSome = s.collected.isSome) (he : e ≠ .ended) : Change s t e none
  | asked (value : List Char) (hv : strip value ≠ []) (hs : s.inFlight = false)
      (hm : t.messages = s.messages++[asking (promptOf value)]) (hf : t.inFlight = true)
      (hc : t.collected = some "") : Change s t (.submitted value true) (some t.payload)
  | unmounted (value : List Char) (hv : strip value ≠ []) (hs : s.inFlight = false)
      (hm : t.messages = s.messages++[asking (promptOf value)]) (hf : t.inFlight = false)
      (hc : t.collected = none) : Change s t (.submitted value false) none
  | answered (collected : String) (hs : s.collected = some collected)
      (hm : t.messages = s.messages++[answering collected]) (hf : t.inFlight = false)
      (hc : t.collected = none) : Change s t .ended none
  | failed (e : Event) (collected : String) (hs : s.collected = some collected)
      (hm : t.messages = s.messages) (hf : t.inFlight = false) (hc : t.collected = none)
      (he : e ≠ .ended) : Change s t e none
  | cleared (hs : s.inFlight = false) (hm : t.messages = []) (hf : t.inFlight = false)
      (hc : t.collected = s.collected) : Change s t .newConversation none

theorem submitted_change (s t : ChatApp) (value : List Char) (mounted : Bool)
    (o : Option ChatPayload) (h : step s (.submitted value mounted) = some (t, o)) :
    Change s t (.submitted value mounted) o := by
  simp only [step] at h
  split_ifs at h with hclosed hloading hidle hmounted
  · obtain ⟨rfl, rfl⟩ := step_inj h
    exact .kept _ rfl rfl rfl nofun
  all_goals
    have hprompt : strip value ≠ [] := by
      intro hs
      exact hidle (Or.inl (by simp [shouldSubmitPrompt, hs]))
    have hrest : s.inFlight = false := by simpa using fun hf => hidle (Or.inr hf)
    obtain ⟨rfl, rfl⟩ := step_inj h
  · rw [hmounted]
    exact .asked value hprompt hrest rfl rfl rfl
  · rw [Bool.eq_false_of_not_eq_true hmounted]
    exact .unmounted value hprompt hrest rfl rfl rfl

theorem step_change (s t : ChatApp) (e : Event) (o : Option ChatPayload)
    (h : step s e = some (t, o)) : Change s t e o := by
  cases e with
  | submitted value mounted => exact submitted_change s t value mounted o h
  | selected model =>
    simp only [step] at h
    split_ifs at h
    obtain ⟨rfl, rfl⟩ := step_inj h
    exact .kept _ rfl rfl rfl nofun
  | loaded ok healthy =>
    simp only [step] at h
    split_ifs at h <;> obtain ⟨rfl, rfl⟩ := step_inj h <;> exact .kept _ rfl rfl rfl nofun
  | token text =>
    cases hc : s.collected with
    | none => simp [step, hc] at h
    | some collected =>
      simp only [step, hc] at h
      split_ifs at h
      obtain ⟨rfl, rfl⟩ := step_inj h
      exact .kept _ rfl rfl (by simp [hc]) nofun
  | ended =>
    cases hc : s.collected with
    | none => simp [step, hc] at h
    | some collected =>
      simp only [step, hc, Option.map_some] at h
      split_ifs at h
      obtain ⟨rfl, rfl⟩ := step_inj h
      exact .answered collected hc rfl rfl rfl
  | failed message =>
    cases hc : s.collected with
    | none => simp [step, hc] at h
    | some collected =>
      simp only [step, hc, Option.map_some] at h
      split_ifs at h
      obtain ⟨rfl, rfl⟩ := step_inj h
      exact .failed _ collected hc rfl rfl rfl nofun
  | raised x =>
    cases hc : s.collected with
    | none => simp [step, hc] at h
    | some collected =>
      simp only [step, hc, Option.map_some] at h
      split_ifs at h
      obtain ⟨rfl, rfl⟩ := step_inj h
      exact .kept _ rfl rfl (by simp [hc]) nofun
  | newConversation =>
    simp only [step] at h
    split_ifs at h with hclosed hf
    · obtain ⟨rfl, rfl⟩ := step_inj h
      exact .kept _ rfl rfl rfl nofun
    · obtain ⟨rfl, rfl⟩ := step_inj h
      exact .cleared (by simpa using hf) rfl (by simpa using hf) rfl
  | quit =>
    simp only [step] at h
    split_ifs at h
    obtain ⟨rfl, rfl⟩ := step_inj h
    exact .kept _ rfl rfl rfl nofun

def Idle (s : ChatApp) : Prop :=
  s.inFlight = false ∧ s.inputDisabled = false ∧ s.collected = none ∧ s.closed = false

theorem step_submitted (s : ChatApp) (value : List Char) (hs : Idle s) (hv : strip value ≠ []) :
    step s (.submitted value true) =
      some ({ s.submit (String.ofList (strip value)) with collected := some "" },
        some (s.submit (String.ofList (strip value))).payload) := by
  obtain ⟨hflight, hdisabled, -, hclosed⟩ := hs
  simp [step, hflight, hdisabled, hclosed, shouldSubmitPrompt, hv]

theorem step_ended (s : ChatApp) (collected : String) (hc : s.collected = some collected)
    (hclosed : s.closed = false) : step s .ended =
      some ({ s with messages := appendTurn s.messages .assistant collected }.settle, none) := by
  simp [step, hc, hclosed]

abbrev Dialogue := List (String × Option String)

def turn (t : String × Option String) : List ChatMessage :=
  asking t.1::t.2.toList.map answering

def messagesOf (d : Dialogue) : List ChatMessage := d.flatMap turn

theorem messagesOf_append (d : Dialogue) (t : String × Option String) :
    messagesOf (d++[t]) = messagesOf d++turn t := by
  simp [messagesOf]

structure Held (s : ChatApp) : Prop where
  dialogue : ∃ d : Dialogue, s.messages = messagesOf d ∧ (∀ t ∈ d, Prompt t.1) ∧
    (s.inFlight = true → ∃ before prompt, d = before++[(prompt, none)])
  reading : s.collected.isSome = s.inFlight

theorem held_start (model : Option String) : Held (.start model) :=
  ⟨⟨[], rfl, by simp, nofun⟩, rfl⟩

theorem held_asked (s t : ChatApp) (value : List Char) (hv : strip value ≠ []) (hs : Held s)
    (hm : t.messages = s.messages++[asking (promptOf value)])
    (hc : t.collected.isSome = t.inFlight) : Held t := by
  obtain ⟨d, hd, hprompts, -⟩ := hs.dialogue
  refine ⟨⟨d++[(promptOf value, none)], ?_, ?_, fun _ => ⟨d, promptOf value, rfl⟩⟩, hc⟩
  · rw [hm, hd, messagesOf_append]
    rfl
  · intro t ht
    rcases List.mem_append.mp ht with hmem | hmem
    · exact hprompts t hmem
    · obtain rfl := List.mem_singleton.mp hmem
      exact ⟨value, hv, rfl⟩

theorem held_change (s t : ChatApp) (e : Event) (o : Option ChatPayload) (hs : Held s)
    (h : Change s t e o) : Held t := by
  obtain ⟨d, hd, hprompts, hopen⟩ := hs.dialogue
  cases h with
  | kept _ hm hf hc =>
    exact ⟨⟨d, by rw [hm, hd], hprompts, by rwa [hf]⟩, by rw [hc, hf, hs.reading]⟩
  | asked value hv _ hm hf hc => exact held_asked s t value hv hs hm (by rw [hc, hf]; rfl)
  | unmounted value hv _ hm hf hc => exact held_asked s t value hv hs hm (by rw [hc, hf]; rfl)
  | answered collected hcol hm hf hc =>
    have hflight : s.inFlight = true := by rw [← hs.reading, hcol]; rfl
    obtain ⟨before, prompt, rfl⟩ := hopen hflight
    refine ⟨⟨before++[(prompt, some collected)], ?_, ?_, by simp [hf]⟩, by rw [hc, hf]; rfl⟩
    · rw [hm, hd, messagesOf_append, messagesOf_append]
      simp [turn]
    · intro t ht
      rcases List.mem_append.mp ht with hmem | hmem
      · exact hprompts t (by simp [hmem])
      · obtain rfl := List.mem_singleton.mp hmem
        exact hprompts (prompt, none) (by simp)
  | failed _ _ _ hm hf hc =>
    exact ⟨⟨d, by rw [hm, hd], hprompts, by simp [hf]⟩, by rw [hc, hf]; rfl⟩
  | cleared hflight hm hf hc =>
    exact ⟨⟨[], by rw [hm]; rfl, by simp, by simp [hf]⟩, by rw [hc, hf, hs.reading, hflight]⟩

theorem held_run (s u : ChatApp) (es : List Event) (os : List (Option ChatPayload)) (hs : Held s)
    (h : run step s es = some (u, os)) : Held u :=
  run_preserves (fun _ => True) Held
    (fun s e t o _ hi hstep => held_change s t e o hi (step_change s t e o hstep))
    s u es os (fun _ _ => trivial) hs h

def sent (os : List (Option ChatPayload)) : List ChatPayload := os.filterMap id

theorem change_prefix (s t : ChatApp) (e : Event) (o : Option ChatPayload)
    (h : Change s t e o) (he : e ≠ .newConversation) : s.messages <+: t.messages := by
  cases h with
  | kept _ hm => rw [hm]
  | asked _ _ _ hm => exact ⟨_, hm.symm⟩
  | unmounted _ _ _ hm => exact ⟨_, hm.symm⟩
  | answered _ _ hm => exact ⟨_, hm.symm⟩
  | failed _ _ _ hm => rw [hm]
  | cleared => exact absurd rfl he

theorem run_prefix (s u : ChatApp) (es : List Event) (os : List (Option ChatPayload))
    (hes : .newConversation ∉ es) (h : run step s es = some (u, os)) :
    s.messages <+: u.messages := by
  induction es generalizing s os with
  | nil =>
    obtain ⟨rfl, -⟩ := step_inj h
    exact List.prefix_rfl
  | cons e es ih =>
    obtain ⟨t, o, os', ht, hu, -⟩ := (run_cons_iff _ _ _ _ _).mp h
    have hfirst := change_prefix s t e o (step_change s t e o ht) fun he => hes (by simp [he])
    exact hfirst.trans (ih t os' (fun hmem => hes (by simp [hmem])) hu)

/-- A request of an event carries the messages of the conversation so far and, at its
end, the prompt that the event submits. -/
def Asks (s : ChatApp) (e : Event) (r : ChatPayload) : Prop :=
  s.messages <+: r.messages ∧ s.messages.length < r.messages.length ∧
    ∃ d value, e = .submitted value true ∧ strip value ≠ [] ∧
      r.messages = messagesOf d++[asking (promptOf value)] ∧ ∀ t ∈ d, Prompt t.1

theorem change_asks (s t : ChatApp) (e : Event) (r : ChatPayload) (hs : Held s)
    (h : Change s t e (some r)) : r.messages = t.messages ∧ Asks s e r := by
  generalize ho : some r = o at h
  cases h with
  | asked value hv _ hm =>
    obtain rfl := Option.some.inj ho
    obtain ⟨d, hd, hprompts, -⟩ := hs.dialogue
    have hmessages : t.payload.messages = s.messages++[asking (promptOf value)] := hm
    exact ⟨rfl, ⟨_, hmessages.symm⟩, by simp [hmessages],
      d, value, rfl, hv, by rw [hmessages, hd], hprompts⟩
  | _ => cases ho

theorem asks_extended (s t : ChatApp) (e : Event) (r : ChatPayload)
    (hp : s.messages <+: t.messages) (h : Asks t e r) : Asks s e r := by
  obtain ⟨hpre, hlen, hshape⟩ := h
  exact ⟨hp.trans hpre, hp.length_le.trans_lt hlen, hshape⟩

theorem held_requests (s u : ChatApp) (es : List Event) (os : List (Option ChatPayload))
    (hs : Held s) (hes : .newConversation ∉ es) (h : run step s es = some (u, os)) :
    (sent os).Pairwise (fun r q => r.messages <+: q.messages ∧
      r.messages.length < q.messages.length) ∧
    ∀ (i : ℕ) (r : ChatPayload), os[i]? = some (some r) →
      ∃ e, es[i]? = some e ∧ Asks s e r ∧ r.messages <+: u.messages := by
  induction es generalizing s os with
  | nil =>
    obtain ⟨rfl, rfl⟩ := step_inj h
    exact ⟨List.Pairwise.nil, by simp⟩
  | cons e es ih =>
    obtain ⟨t, o, os', ht, hu, rfl⟩ := (run_cons_iff _ _ _ _ _).mp h
    have hchange := step_change s t e o ht
    have hrest : Event.newConversation ∉ es := fun hmem => hes (by simp [hmem])
    have hpre := change_prefix s t e o hchange fun he => hes (by simp [he])
    obtain ⟨hpair, hall⟩ := ih t os' (held_change s t e o hs hchange) hrest hu
    constructor
    · cases o with
      | none => exact hpair
      | some r =>
        obtain ⟨hr, -⟩ := change_asks s t e r hs hchange
        refine List.pairwise_cons.mpr ⟨fun q hq => ?_, hpair⟩
        obtain ⟨o, ho, hoq⟩ := List.mem_filterMap.mp hq
        obtain ⟨i, hi⟩ := List.getElem?_of_mem ho
        obtain ⟨e', -, hasks, -⟩ := hall i q (by rw [hi]; exact congrArg some hoq)
        rw [hr]
        exact ⟨hasks.1, hasks.2.1⟩
    · rintro (_ | i) r hi
      · obtain rfl := Option.some.inj hi
        obtain ⟨hr, hasks⟩ := change_asks s t e r hs hchange
        exact ⟨e, rfl, hasks, by rw [hr]; exact run_prefix t u es os' hrest hu⟩
      · obtain ⟨e', he', hasks, hprefix⟩ := hall i r hi
        exact ⟨e', he', asks_extended s t e' r hpre hasks, hprefix⟩

/-- Within one conversation every request repeats all messages of the one before. It
is sent by an event that submits a prompt and ends with this prompt; what stands
before it is a dialogue of prompts, answered or not. -/
theorem conversation_requests (model : Option String) (s u : ChatApp) (es : List Event)
    (os : List (Option ChatPayload)) (hs : Reachable step (.start model) s)
    (hes : .newConversation ∉ es) (h : run step s es = some (u, os)) :
    (sent os).Pairwise (fun r q => r.messages <+: q.messages ∧
      r.messages.length < q.messages.length) ∧
    ∀ (i : ℕ) (r : ChatPayload), os[i]? = some (some r) →
      ∃ e, es[i]? = some e ∧ Asks s e r ∧ r.messages <+: u.messages := by
  obtain ⟨before, outs, hbefore⟩ := hs
  exact held_requests s u es os (held_run _ s before outs (held_start model) hbefore) hes h

def ready : ChatApp := { ChatApp.start (some "m") with inputDisabled := false }

theorem ready_reachable : Reachable step (.start (some "m")) ready :=
  ⟨[.loaded true false], [none], by simp [run, step, ChatApp.start, ready]⟩

theorem conversation_requests_two : ∃ u os r,
    run step ready [.submitted ['a'] true, .failed "Read timeout while streaming.",
      .submitted ['b', ' '] true] = some (u, os) ∧
    os[2]? = some (some r) ∧ r.messages = [asking "a", asking "b"] ∧ r.messages <+: u.messages := by
  obtain ⟨e, -, -, hkept⟩ := (conversation_requests (some "m") ready _
    [.submitted ['a'] true, .failed "Read timeout while streaming.", .submitted ['b', ' '] true] _
    ready_reachable (by decide) rfl).2 2 _ rfl
  exact ⟨_, _, _, rfl, rfl, rfl, hkept⟩

def responseEvents (lines : List (List Char)) : List Event :=
  (streamChatTokens lines).1.map .token++[((streamChatTokens lines).2.map Event.raised).getD .ended]

theorem tokens_nonempty (lines : List (List Char)) :
    ∀ token ∈ (streamChatTokens lines).1, token ≠ "" := by
  induction lines with
  | nil => simp [streamChatTokens]
  | cons line lines ih =>
    rw [streamChatTokens]
    split_ifs
    · simp
    · split
      · simp
      · exact ih
      · split_ifs with hempty
        · exact ih
        · exact List.forall_mem_cons.mpr ⟨hempty, ih⟩

theorem tokens_run (s : ChatApp) (collected : String) (tokens : List String)
    (hc : s.collected = some collected) (hclosed : s.closed = false)
    (ht : ∀ token ∈ tokens, token ≠ "") : ∃ u os, run step s (tokens.map .token) = some (u, os) ∧
      u.messages = s.messages ∧ u.closed = false ∧
      ∃ text, u.collected = some text ∧
        text.toList = collected.toList++tokens.flatMap String.toList := by
  induction tokens generalizing s collected with
  | nil => exact ⟨s, [], rfl, rfl, hclosed, collected, hc, by simp⟩
  | cons token tokens ih =>
    obtain ⟨hne, hrest⟩ := List.forall_mem_cons.mp ht
    let next : ChatApp := { s with
      collected := some (collected ++ token)
      history := showLast s.history (collected ++ token) }
    have hstep : step s (.token token) = some (next, none) := by
      simp [step, hclosed, hc, hne, next]
    obtain ⟨u, os, hu, hmessages, huclosed, text, htext, hall⟩ :=
      ih next (collected ++ token) rfl hclosed hrest
    refine ⟨u, none::os, ?_, hmessages, huclosed, text, htext, ?_⟩
    · simp [run, hstep, hu]
    · simp [hall]

section Served
open InferenceX.StreamEvents InferenceX.StreamMachine InferenceX.StreamTranscript
variable {E : Type}

/-- A submitted prompt and a stream the server ended: the answer recorded is
the text the engine gave, also where the server cut it off at its time bound. -/
theorem answer_recorded (job : Job E) (inputs : List Input) (oss : List (List (Output E)))
    (lines : List (List Char)) (s : ChatApp) (value : List Char) (hr : ReadsOn inputs)
    (h : run (StreamMachine.step job) .created inputs = some (.finished none, oss))
    (hlines : lines = splitlines ((events oss.flatten).flatMap SseEvent.text))
    (hs : Idle s) (hv : strip value ≠ []) :
    ∃ u os answer, run step s (.submitted value true::responseEvents lines) = some (u, os) ∧
      u.messages = s.messages++[asking (String.ofList (strip value)), answering answer] ∧
      answer.toList = (engineContents (answers inputs)).flatMap String.toList ∧ Idle u := by
  obtain ⟨a, hev⟩ := finished_transcript job inputs oss hr h
  obtain ⟨tokens, htokens, -, htext⟩ := transcript_tokens job a (answers inputs)
  rw [StreamFrames.splitlines_events, hev] at hlines
  rw [← hlines] at htokens
  have hall : ∀ token ∈ tokens, token ≠ "" := by
    have hne := tokens_nonempty lines
    rwa [htokens] at hne
  let asked : ChatApp := { s.submit (String.ofList (strip value)) with collected := some "" }
  obtain ⟨t, os, ht, hmessages, hclosed, text, hcollected, hread⟩ :=
    tokens_run asked "" tokens rfl hs.2.2.2 hall
  have hended := step_ended t text hcollected hclosed
  let last : ChatApp := { t with messages := appendTurn t.messages .assistant text }.settle
  let sentNow := some (s.submit (String.ofList (strip value))).payload
  refine ⟨last, sentNow::(os++[none]), text, ?_, ?_, ?_, ⟨rfl, rfl, rfl, hclosed⟩⟩
  · rw [responseEvents, htokens]
    have hlast : run step t [.ended] = some (last, [none]) := by
      simp only [run, hended]
      rfl
    have hbody := run_append _ _ _ _ _ _ _ ht hlast
    exact (run_cons_iff _ _ _ _ _).mpr ⟨_, _, _, step_submitted s value hs hv, hbody, rfl⟩
  · simp [last, ChatApp.settle, hmessages, asked, ChatApp.submit, appendTurn, asking, answering]
  · rw [hread, htext]
    rfl

theorem answer_recorded_hello : ∃ u os answer oss,
    run (StreamMachine.step helloJob) .created helloInputs = some (.finished none, oss) ∧
    run step ready (.submitted ['a'] true::
      responseEvents (splitlines ((events oss.flatten).flatMap SseEvent.text))) = some (u, os) ∧
    u.messages = [asking "a", answering answer] := by
  obtain ⟨u, os, answer, hrun, hmessages, -⟩ := answer_recorded helloJob helloInputs _ _ ready ['a']
    (readsOn_reading _ _ _ _) rfl rfl ⟨rfl, rfl, rfl, rfl⟩ (by decide)
  exact ⟨u, os, answer, _, rfl, hrun, hmessages⟩

end Served

end InferenceX.Conversation
