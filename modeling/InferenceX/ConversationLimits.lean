import InferenceX.Conversation

/-!
# A conversation before the server

The schema takes no more than fifty messages, none of them too long, and the
client never drops one. A conversation that was refused stays refused until
the user starts a new one, and none gets more than twenty-five answers.
-/

set_option autoImplicit false

namespace InferenceX.ConversationLimits
open Library.StepRuns Library.TextLines Library.JsonText
open InferenceX.ChatSchema InferenceX.Conversation

structure Session where
  app : ChatApp
  request : Option ChatPayload

def isAnswer : Event → Bool
  | .token _ => true
  | .ended => true
  | _ => false

def accepted (request : Option ChatPayload) : Bool := request.any fun r => r.request.valid

def Session.step (x : Session) (e : Event) : Option (Session × Option ChatPayload) :=
  if isAnswer e ∧ ¬ accepted x.request then none
  else (Conversation.step x.app e).map fun r => (⟨r.1, r.2.or x.request⟩, r.2)

def Session.start (model : Option String) : Session := ⟨.start model, none⟩

/-- What the schema asks of the messages, in number and in length. -/
def Fits (messages : List ChatMessage) : Prop :=
  messages.length ≤ 50 ∧ ∀ m ∈ messages, m.content.length ≤ 32000

theorem fits_initial (xs ys : List ChatMessage) (h : xs <+: ys) (hy : Fits ys) : Fits xs :=
  ⟨h.length_le.trans hy.1, fun m hm => hy.2 m (h.subset hm)⟩

theorem valid_iff_fits (messages : List ChatMessage) (model : String) (hne : messages ≠ []) :
    (buildChatPayload messages model).request.valid = true ↔ Fits messages := by
  have htemperature : floatIn 0 2 (some (.short 0 7)) = true := by decide +kernel
  have htopP : floatIn 0 1 (some defaultTopP) = true := by decide +kernel
  have hlen : 1 ≤ messages.length := List.length_pos_iff.mpr hne
  simp only [ChatCompletionRequest.valid, ChatPayload.request, buildChatPayload,
    Option.getD_some, Option.getD_none, htemperature, htopP, intIn, intAtLeast, Bool.and_true,
    Bool.and_eq_true, decide_eq_true_eq, List.all_eq_true, Fits]
  exact ⟨fun h => ⟨of_decide_eq_true h.1.1.2, h.1.2⟩,
    fun h => ⟨⟨⟨decide_eq_true hlen, decide_eq_true h.1⟩, h.2⟩, by decide, by decide⟩⟩

structure Open (x : Session) : Prop where
  held : Held x.app
  request : x.app.inFlight = true →
    ∃ model, x.request = some (buildChatPayload x.app.messages model)

theorem session_change (x y : Session) (e : Event) (o : Option ChatPayload)
    (h : x.step e = some (y, o)) : Conversation.step x.app e = some (y.app, o) ∧
      y.request = o.or x.request ∧ (isAnswer e = true → accepted x.request = true) := by
  rw [Session.step] at h
  split_ifs at h with hrefused
  obtain ⟨r, hr, h⟩ := Option.map_eq_some_iff.mp h
  obtain ⟨rfl, rfl⟩ := Prod.mk.inj h
  refine ⟨hr, rfl, fun ha => ?_⟩
  by_contra hrequest
  exact hrefused ⟨ha, hrequest⟩

theorem open_step (x y : Session) (e : Event) (o : Option ChatPayload) (hx : Open x)
    (h : x.step e = some (y, o)) : Open y := by
  obtain ⟨hstep, hrequest, -⟩ := session_change x y e o h
  have hchange := step_change x.app y.app e o hstep
  refine ⟨held_change x.app y.app e o hx.held hchange, fun hf => ?_⟩
  rw [hrequest]
  cases hchange with
  | kept _ hm hflight =>
    rw [hm]
    exact hx.request (by rwa [← hflight])
  | asked => exact ⟨_, rfl⟩
  | unmounted _ _ _ _ hflight =>
    rw [hflight] at hf
    cases hf
  | answered _ _ _ hflight => simp [hflight] at hf
  | failed _ _ _ _ hflight => simp [hflight] at hf
  | cleared _ _ hflight _ => simp [hflight] at hf

theorem open_start (model : Option String) : Open (.start model) :=
  ⟨held_start model, fun hf => by cases hf⟩

theorem open_run (model : Option String) (x : Session)
    (h : Reachable Session.step (.start model) x) : Open x := by
  obtain ⟨es, os, hrun⟩ := h
  exact run_preserves (fun _ => True) Open (fun x e y o _ hx hstep => open_step x y e o hx hstep)
    _ x es os (fun _ _ => trivial) (open_start model) hrun

theorem answer_reads (s t : ChatApp) (e : Event) (o : Option ChatPayload)
    (h : step s e = some (t, o)) (he : isAnswer e = true) : s.collected.isSome = true := by
  cases hc : s.collected with
  | some collected => rfl
  | none =>
    cases e with
    | token text => simp [step, hc] at h
    | ended => simp [step, hc] at h
    | _ => cases he

theorem answer_fits (x y : Session) (e : Event) (o : Option ChatPayload) (hx : Open x)
    (h : x.step e = some (y, o)) (he : isAnswer e = true) : Fits x.app.messages := by
  obtain ⟨hstep, -, hanswer⟩ := session_change x y e o h
  have hflight : x.app.inFlight = true := by
    rw [← hx.held.reading]
    exact answer_reads x.app y.app e o hstep he
  obtain ⟨model, hrequest⟩ := hx.request hflight
  have hvalid := hanswer he
  rw [accepted, hrequest, Option.any_some] at hvalid
  obtain ⟨d, hd, -, hopen⟩ := hx.held.dialogue
  obtain ⟨before, prompt, rfl⟩ := hopen hflight
  refine (valid_iff_fits _ _ ?_).mp hvalid
  simp [hd, messagesOf_append, turn]

/-- A step of a session that is no new conversation only adds messages, and
what it sends is accepted where the messages fit. -/
theorem session_sends (x y : Session) (e : Event) (r : ChatPayload) (hx : Open x)
    (h : x.step e = some (y, some r)) : r.messages = y.app.messages ∧
      (r.request.valid = true ↔ Fits r.messages) := by
  obtain ⟨hstep, -, -⟩ := session_change x y e _ h
  have hchange := step_change x.app y.app e _ hstep
  obtain ⟨hr, -, hlen, -⟩ := change_asks x.app y.app e r hx.held hchange
  have hne : y.app.messages ≠ [] := by
    rw [← hr]
    exact List.ne_nil_of_length_pos (by omega)
  generalize ho : some r = o at hchange
  cases hchange with
  | asked =>
    obtain rfl := Option.some.inj ho
    exact ⟨rfl, valid_iff_fits _ _ hne⟩
  | _ => cases ho

theorem refused_run (x y : Session) (es : List Event) (os : List (Option ChatPayload))
    (hx : Open x) (hfull : ¬ Fits x.app.messages) (hes : .newConversation ∉ es)
    (h : run Session.step x es = some (y, os)) :
    ¬ Fits y.app.messages ∧ (∀ e ∈ es, isAnswer e = false) ∧
      ∀ r ∈ sent os, r.request.valid = false := by
  induction es generalizing x os with
  | nil =>
    obtain ⟨rfl, rfl⟩ := step_inj h
    exact ⟨hfull, by simp, by simp [sent]⟩
  | cons e es ih =>
    obtain ⟨t, o, os', ht, hu, rfl⟩ := (run_cons_iff _ _ _ _ _).mp h
    obtain ⟨hstep, -, -⟩ := session_change x t e o ht
    have hpre := change_prefix x.app t.app e o (step_change _ _ e o hstep)
      fun he => hes (by simp [he])
    have hstill : ¬ Fits t.app.messages := fun hfits => hfull (fits_initial _ _ hpre hfits)
    have hno : isAnswer e = false := by
      by_contra hanswer
      exact hfull (answer_fits x t e o hx ht (by simpa using hanswer))
    obtain ⟨hend, hanswers, hsent⟩ :=
      ih t os' (open_step x t e o hx ht) hstill (fun hmem => hes (by simp [hmem])) hu
    refine ⟨hend, List.forall_mem_cons.mpr ⟨hno, hanswers⟩, fun r hr => ?_⟩
    cases o with
    | none => exact hsent r hr
    | some q =>
      rcases List.mem_cons.mp hr with rfl | hr
      · obtain ⟨hmessages, hvalid⟩ := session_sends x t e r hx ht
        rw [← Bool.not_eq_true, hvalid, hmessages]
        exact hstill
      · exact hsent r hr

/-- Once the messages hold more than fifty turns or one too long, the
conversation is lost: until the user starts a new one no request of it is
accepted, no answer arrives, and the messages stay too many. -/
theorem refused_conversation (model : Option String) (x y : Session) (es : List Event)
    (os : List (Option ChatPayload)) (hx : Reachable Session.step (.start model) x)
    (hfull : ¬ Fits x.app.messages) (hes : .newConversation ∉ es)
    (h : run Session.step x es = some (y, os)) :
    ¬ Fits y.app.messages ∧ (∀ e ∈ es, isAnswer e = false) ∧
      ∀ r ∈ sent os, r.request.valid = false :=
  refused_run x y es os (open_run model x hx) hfull hes h

def Session.asked (x : Session) (value : List Char) : Session :=
  let asked := x.app.submit (String.ofList (strip value))
  ⟨{ asked with collected := some "" }, some asked.payload⟩

theorem session_submitted (x : Session) (value : List Char) (hx : Idle x.app)
    (hv : strip value ≠ []) :
    x.step (.submitted value true) = some (x.asked value, (x.asked value).request) := by
  have hasked := step_submitted x.app value hx hv
  simp [Session.step, isAnswer, hasked, Session.asked]

def overlongPrompt : List Char := 'a' :: (List.replicate 31999 'a'++['a'])

def overlong : Session := Session.asked ⟨ready, none⟩ overlongPrompt

theorem strip_overlong : strip overlongPrompt = overlongPrompt :=
  strip_inner 'a' 'a' _ (by decide) (by decide)

theorem overlong_reachable : Reachable Session.step (.start (some "m")) overlong := by
  have hv : strip overlongPrompt ≠ [] := by
    rw [strip_overlong]
    exact List.cons_ne_nil _ _
  have hloaded : Session.step (.start (some "m")) (.loaded true false) =
      some (⟨ready, none⟩, none) := by
    simp [Session.step, Session.start, isAnswer, step, ChatApp.start, ready]
  have hasked := session_submitted ⟨ready, none⟩ overlongPrompt ⟨rfl, rfl, rfl, rfl⟩ hv
  exact ⟨[.loaded true false, .submitted overlongPrompt true], [none, _],
    (run_cons_iff _ _ _ _ _).mpr ⟨_, _, _, hloaded,
      (run_cons_iff _ _ _ _ _).mpr ⟨_, _, _, hasked, rfl, rfl⟩, rfl⟩⟩

theorem overlong_unfit : ¬ Fits overlong.app.messages := by
  intro hfits
  have hlen := hfits.2 (asking (String.ofList (strip overlongPrompt)))
    (List.mem_append_right _ (List.mem_singleton.mpr rfl))
  rw [strip_overlong, asking, String.length_ofList, overlongPrompt, List.length_cons,
    List.length_append, List.length_replicate, List.length_singleton] at hlen
  omega

def timedOut : String := "Read timeout while streaming."

/-- The client whose read times out before the refusal comes; the prompt stays. -/
def overlongFailed : Session :=
  ⟨{ overlong.app with
      history := showLast overlong.app.history ("**Error:** " ++ timedOut) }.settle,
    overlong.request⟩

theorem overlong_failed : run Session.step overlong [.failed timedOut] =
    some (overlongFailed, [none]) := by
  have hstep : step overlong.app (.failed timedOut) = some (overlongFailed.app, none) := by
    have hclosed : overlong.app.closed = false := rfl
    have hcollected : overlong.app.collected = some "" := rfl
    simp only [step, hclosed, hcollected, Option.map_some]
    rfl
  have hsession : Session.step overlong (.failed timedOut) = some (overlongFailed, none) := by
    simp only [Session.step, isAnswer, hstep]
    rfl
  simp only [run, hsession]
  rfl

theorem refused_overlong : ¬ Fits overlongFailed.app.messages :=
  (refused_conversation (some "m") overlong overlongFailed [.failed timedOut] [none]
    overlong_reachable overlong_unfit (by decide) overlong_failed).1

def answerCount (messages : List ChatMessage) : ℕ := messages.countP fun m => m.role = .assistant

theorem answerCount_append (xs ys : List ChatMessage) :
    answerCount (xs++ys) = answerCount xs+answerCount ys :=
  List.countP_append

theorem answerCount_turn (t : String × Option String) :
    answerCount (turn t)+1 ≤ (turn t).length ∧ (turn t).length ≤ 2 ∧
      (t.2 = none → answerCount (turn t) = 0) := by
  obtain ⟨prompt, answer⟩ := t
  cases answer <;> simp [answerCount, turn, asking, answering]

theorem answerCount_dialogue (d : Dialogue) :
    2*answerCount (messagesOf d) ≤ (messagesOf d).length := by
  induction d with
  | nil => simp [messagesOf, answerCount]
  | cons t d ih =>
    have hcons : messagesOf (t::d) = turn t++messagesOf d := rfl
    have ht := answerCount_turn t
    rw [hcons, answerCount_append, List.length_append]
    omega

theorem answerCount_open (d : Dialogue) (prompt : String)
    (h : Fits (messagesOf (d++[(prompt, none)]))) :
    answerCount (messagesOf (d++[(prompt, none)])) ≤ 24 := by
  have hd := answerCount_dialogue d
  have hlen := h.1
  have hlast := (answerCount_turn (prompt, none)).2.2 rfl
  have hone : (turn (prompt, none)).length = 1 := rfl
  rw [messagesOf_append, List.length_append, hone] at hlen
  rw [messagesOf_append, answerCount_append, hlast]
  omega

theorem answerCount_step (x y : Session) (e : Event) (o : Option ChatPayload) (hx : Open x)
    (hle : answerCount x.app.messages ≤ 25) (h : x.step e = some (y, o)) :
    answerCount y.app.messages ≤ 25 := by
  obtain ⟨hstep, -, -⟩ := session_change x y e o h
  have hasking (prompt : String) : answerCount [asking prompt] = 0 := rfl
  have hchange := step_change x.app y.app e o hstep
  cases hchange with
  | kept _ hm => rwa [hm]
  | asked _ _ _ hm => rwa [hm, answerCount_append, hasking]
  | unmounted _ _ _ hm => rwa [hm, answerCount_append, hasking]
  | failed _ _ _ hm => rwa [hm]
  | cleared _ hm _ _ => simp [hm, answerCount]
  | answered collected hcol hm =>
    have hflight : x.app.inFlight = true := by rw [← hx.held.reading, hcol]; rfl
    have hfits := answer_fits x y .ended none hx h rfl
    obtain ⟨d, hd, -, hopen⟩ := hx.held.dialogue
    obtain ⟨before, prompt, rfl⟩ := hopen hflight
    rw [hd] at hfits
    have hroom := answerCount_open before prompt hfits
    have hone : answerCount [answering collected] = 1 := rfl
    rw [hm, hd, answerCount_append, hone]
    omega

theorem answerCount_run (model : Option String) (x : Session)
    (h : Reachable Session.step (.start model) x) : answerCount x.app.messages ≤ 25 := by
  obtain ⟨es, os, hrun⟩ := h
  have hstart : answerCount (Session.start model).app.messages ≤ 25 := Nat.zero_le 25
  have hboth := run_preserves (fun _ => True) (fun x => Open x ∧ answerCount x.app.messages ≤ 25)
    (fun x e y o _ hx hstep =>
      ⟨open_step x y e o hx.1 hstep, answerCount_step x y e o hx.1 hx.2 hstep⟩)
    _ x es os (fun _ _ => trivial) ⟨open_start model, hstart⟩ hrun
  exact hboth.2

theorem session_answered (x : Session) (hx : Idle x.app)
    (hfits : Fits (x.app.messages++[asking "a"])) : ∃ y, Reachable Session.step x y ∧
      Idle y.app ∧ y.app.messages = x.app.messages++[asking "a", answering ""] := by
  have hvalue : strip ['a'] ≠ [] := by decide
  have hasked := step_submitted x.app ['a'] hx hvalue
  have hprompt : String.ofList (strip ['a']) = "a" := by decide
  rw [hprompt] at hasked
  have hvalid : (x.app.submit "a").payload.request.valid = true :=
    (valid_iff_fits _ _ (by simp [ChatApp.submit, appendTurn])).mpr hfits
  let asked : ChatApp := { x.app.submit "a" with collected := some "" }
  let ended : ChatApp := { asked with messages := appendTurn asked.messages .assistant "" }.settle
  refine ⟨⟨ended, some (x.app.submit "a").payload⟩, ?_, ⟨rfl, rfl, rfl, hx.2.2.2⟩, ?_⟩
  · refine ⟨[.submitted ['a'] true, .ended], [some (x.app.submit "a").payload, none], ?_⟩
    have hfirst : x.step (.submitted ['a'] true) = some (⟨asked, some (x.app.submit "a").payload⟩,
        some (x.app.submit "a").payload) := by
      simp [Session.step, isAnswer, hasked, asked]
    have hsecond : Session.step ⟨asked, some (x.app.submit "a").payload⟩ .ended =
        some (⟨ended, some (x.app.submit "a").payload⟩, none) := by
      have hend := step_ended asked "" rfl hx.2.2.2
      simp [Session.step, isAnswer, accepted, hvalid, hend, ended]
    simp [run, hfirst, hsecond]
  · simp [ended, asked, ChatApp.settle, ChatApp.submit, appendTurn, asking, answering]

theorem answered_reachable (k : ℕ) (hk : k ≤ 25) :
    ∃ x, Reachable Session.step (.start (some "m")) x ∧ Idle x.app ∧
      x.app.messages.length = 2*k ∧ answerCount x.app.messages = k ∧
      ∀ m ∈ x.app.messages, m.content.length ≤ 1 := by
  induction k with
  | zero =>
    refine ⟨⟨{ ChatApp.start (some "m") with inputDisabled := false, healthy := true }, none⟩,
      ⟨[.loaded true true], [none], ?_⟩, ⟨rfl, rfl, rfl, rfl⟩, rfl, rfl, by simp [ChatApp.start]⟩
    simp [run, Session.step, isAnswer, Session.start, step, ChatApp.start]
  | succ k ih =>
    obtain ⟨x, ⟨es, os, hrun⟩, hidle, hlen, hcount, hshort⟩ := ih (by omega)
    have hfits : Fits (x.app.messages++[asking "a"]) := by
      constructor
      · rw [List.length_append, hlen, List.length_singleton]
        omega
      · intro m hm
        rcases List.mem_append.mp hm with hm | hm
        · have hone := hshort m hm
          omega
        · obtain rfl := List.mem_singleton.mp hm
          decide
    obtain ⟨y, ⟨fs, ps, hmore⟩, hyidle, hy⟩ := session_answered x hidle hfits
    refine ⟨y, ⟨es++fs, os++ps, run_append _ _ _ _ _ _ _ hrun hmore⟩, hyidle, ?_, ?_, ?_⟩
    · rw [hy, List.length_append, hlen]
      simp only [List.length_cons, List.length_nil]
      omega
    · rw [hy, answerCount_append, hcount]
      rfl
    · intro m hm
      rw [hy] at hm
      rcases List.mem_append.mp hm with hm | hm
      · exact hshort m hm
      · rcases List.mem_pair.mp hm with rfl | rfl <;> decide

/-- A conversation gets any number of answers up to twenty-five, and no more. -/
theorem answers_reachable_iff (k : ℕ) :
    (∃ model x, Reachable Session.step (.start model) x ∧ answerCount x.app.messages = k) ↔
      k ≤ 25 := by
  constructor
  · rintro ⟨model, x, hx, rfl⟩
    exact answerCount_run model x hx
  · intro hk
    obtain ⟨x, hx, -, -, hcount, -⟩ := answered_reachable k hk
    exact ⟨some "m", x, hx, hcount⟩

end InferenceX.ConversationLimits
