import InferenceX.CompareSteps

/-!
# Who writes into a panel

A stream that a failed submission left behind writes into the panel of the
next one. Every token in a panel is of the stream started there last or of a
stream whose sibling failed, and there is one such stream at most for every
failure.
-/

set_option autoImplicit false

namespace InferenceX.CompareWriters
open Library.StepRuns
open InferenceX.ComparePanels InferenceX.CompareSteps

def Failed (es : List Event) (submission : ℕ) (side : Side) : Prop :=
  ∃ failure, .fails submission side failure ∈ es

theorem Failed.more {es : List Event} {submission : ℕ} {side : Side} (e : Event)
    (h : Failed es submission side) : Failed (es++[e]) submission side := by
  obtain ⟨failure, hf⟩ := h
  exact ⟨failure, List.mem_append_left _ hf⟩

/-- The stream of a panel is the one started last; any other that is still
there lost its sibling. -/
structure Shown (es : List Event) (os : List (List (Side × Write))) (s : CompareApp) : Prop where
  content : ∀ side, (s.panels side).content = (traceOf side os.flatten).text
  unique : (s.tasks.map fun task => (task.submission, task.side)).Nodup
  bound : ∀ task ∈ s.tasks, task.submission ≤ s.submissions
  live : ∀ task ∈ s.tasks, Failed es task.submission task.side.other ∨
    task.submission = s.submissions ∧ Streaming s
  fresh : ∀ task ∈ s.tasks, task.begun = false → task.submission = s.submissions ∧ Busy s
  owned : ∀ task ∈ s.tasks, task.begun = true →
    (traceOf task.side os.flatten).owner = some task.submission ∨
      Failed es task.submission task.side.other
  authors : ∀ side, ∀ w ∈ (traceOf side os.flatten).tokens,
    (traceOf side os.flatten).owner = some w.1 ∨ Failed es w.1 side.other

theorem shown_start (compare : Option (String × String)) : Shown [] [] (.start compare) where
  content := fun side => by cases side <;> rfl
  unique := List.nodup_nil
  bound := nofun
  live := nofun
  fresh := nofun
  owned := nofun
  authors := nofun

theorem find_task (s : CompareApp) (submission : ℕ) (side : Side) (task : StreamTask)
    (h : s.find submission side = some task) :
    task ∈ s.tasks ∧ task.submission = submission ∧ task.side = side := by
  have hkey := List.find?_some h
  exact ⟨List.mem_of_find?_eq_some h, by simpa using hkey⟩

theorem mem_drop (s : CompareApp) (submission : ℕ) (side : Side) (task : StreamTask) :
    task ∈ (s.drop submission side).tasks ↔
      task ∈ s.tasks ∧ ¬ (task.submission = submission ∧ task.side = side) := by
  simp only [CompareApp.drop, List.mem_filter, decide_eq_true_eq]

theorem mem_begin (s : CompareApp) (submission : ℕ) (side : Side) (task : StreamTask)
    (h : task ∈ (s.begin submission side).tasks) : ∃ before ∈ s.tasks,
      before.submission = task.submission ∧ before.side = task.side ∧
        (¬ (task.submission = submission ∧ task.side = side) → before = task) ∧
        (task.begun = false → ¬ (task.submission = submission ∧ task.side = side)) := by
  obtain ⟨before, hmem, hb⟩ := List.mem_map.mp h
  split_ifs at hb with hkey
  · subst hb
    exact ⟨before, hmem, rfl, rfl, fun hn => absurd hkey hn, nofun⟩
  · subst hb
    exact ⟨before, hmem, rfl, rfl, fun _ => rfl, fun _ => hkey⟩

theorem begin_keys (s : CompareApp) (submission : ℕ) (side : Side) :
    ((s.begin submission side).tasks.map fun task => (task.submission, task.side)) =
      s.tasks.map fun task => (task.submission, task.side) := by
  rw [CompareApp.begin, List.map_map]
  refine List.map_congr_left fun task _ => ?_
  simp only [Function.comp]
  split_ifs <;> rfl

theorem Shown.keep {es : List Event} {os : List (List (Side × Write))} {s t : CompareApp}
    (hs : Shown es os s) (e : Event) (ht : t.tasks = s.tasks) (hn : t.submissions = s.submissions)
    (hc : ∀ side, (t.panels side).content = (s.panels side).content)
    (hlive : ∀ task ∈ s.tasks, task.submission = s.submissions → Streaming s →
      Failed (es++[e]) task.submission task.side.other ∨ Streaming t)
    (hfresh : ∀ task ∈ s.tasks, task.begun = false → Busy s → Busy t) :
    Shown (es++[e]) (os++[[]]) t := by
  have hflat : (os++[[]]).flatten = os.flatten := by simp
  refine ⟨?_, by rw [ht]; exact hs.unique, by rw [ht, hn]; exact hs.bound, ?_, ?_, ?_, ?_⟩
  · intro side
    rw [hc, hflat, hs.content]
  · intro task hmem
    rw [ht] at hmem
    rcases hs.live task hmem with hf | ⟨hnumber, hstream⟩
    · exact Or.inl (hf.more e)
    · rw [hn]
      exact (hlive task hmem hnumber hstream).imp_right fun hw => ⟨hnumber, hw⟩
  · intro task hmem hb
    rw [ht] at hmem
    obtain ⟨hnumber, hbusy⟩ := hs.fresh task hmem hb
    exact ⟨by rw [hn, hnumber], hfresh task hmem hb hbusy⟩
  · intro task hmem hb
    rw [ht] at hmem
    rw [hflat]
    exact (hs.owned task hmem hb).imp_right (Failed.more e)
  · intro side w hw
    rw [hflat] at hw ⊢
    exact (hs.authors side w hw).imp_right (Failed.more e)

section Steps
variable {es : List Event} {os : List (List (Side × Write))} {s t : CompareApp}

theorem flatten_one (os : List (List (Side × Write))) (o : List (Side × Write)) :
    (os++[o]).flatten = os.flatten++o := by simp

theorem shown_gathers (hs : Shown es os s) (e : Event) (prompt : String) (hidle : ¬ Busy s)
    (hw : Streaming t) (ht : t.tasks = s.tasks++newTasks (s.submissions+1) prompt)
    (hn : t.submissions = s.submissions+1)
    (hc : ∀ side, (t.panels side).content = (s.panels side).content) :
    Shown (es++[e]) (os++[[]]) t := by
  have hflat : (os++[[]]).flatten = os.flatten := by simp
  have hnew : ∀ task ∈ newTasks (s.submissions+1) prompt,
      task.submission = s.submissions+1 ∧ task.begun = false := by simp [newTasks]
  have hold : ∀ task ∈ s.tasks, Failed es task.submission task.side.other := by
    intro task hmem
    rcases hs.live task hmem with hf | ⟨-, hstream⟩
    · exact hf
    · exact absurd (Or.inl hstream) hidle
  refine ⟨?_, ?_, ?_, ?_, ?_, ?_, ?_⟩
  · intro side
    rw [hc, hflat, hs.content]
  · rw [ht, List.map_append, List.nodup_append]
    refine ⟨hs.unique, by simp [newTasks], ?_⟩
    intro key hkey key' hkey' heq
    obtain ⟨task, hmem, rfl⟩ := List.mem_map.mp hkey
    obtain ⟨task', hmem', rfl⟩ := List.mem_map.mp hkey'
    have hbound := hs.bound task hmem
    have hnumber := (hnew task' hmem').1
    have hsame := (Prod.mk.inj heq).1
    omega
  · intro task hmem
    rw [ht] at hmem
    rcases List.mem_append.mp hmem with hmem | hmem
    · have hbound := hs.bound task hmem
      omega
    · rw [hn, (hnew task hmem).1]
  · intro task hmem
    rw [ht] at hmem
    rcases List.mem_append.mp hmem with hmem | hmem
    · exact Or.inl ((hold task hmem).more e)
    · exact Or.inr ⟨by rw [hn, (hnew task hmem).1], hw⟩
  · intro task hmem hb
    rw [ht] at hmem
    rcases List.mem_append.mp hmem with hmem | hmem
    · exact absurd (hs.fresh task hmem hb).2 hidle
    · exact ⟨by rw [hn, (hnew task hmem).1], Or.inl hw⟩
  · intro task hmem hb
    rw [ht] at hmem
    rcases List.mem_append.mp hmem with hmem | hmem
    · exact Or.inr ((hold task hmem).more e)
    · simp [(hnew task hmem).2] at hb
  · intro side w hw'
    rw [hflat] at hw' ⊢
    exact (hs.authors side w hw').imp_right (Failed.more e)

theorem shown_begins (hs : Shown es os s) (e : Event) (submission : ℕ) (side : Side)
    (task : StreamTask) (hf : s.find submission side = some task) (hb : task.begun = false)
    (ht : t.tasks = (s.begin submission side).tasks) (hn : t.submissions = s.submissions)
    (hw : t.worker = s.worker) (hc : (t.panels side).content = "")
    (ho : (t.panels side.other).content = (s.panels side.other).content) :
    Shown (es++[e]) (os++[[(side, .started submission)]]) t := by
  obtain ⟨hmem, hnumber, hside⟩ := find_task s submission side task hf
  have hcurrent : submission = s.submissions := by rw [← hnumber]; exact (hs.fresh task hmem hb).1
  have hstream : Streaming t ↔ Streaming s := by simp [Streaming, hw]
  have hbusy : Busy t ↔ Busy s := by simp [Busy, Streaming, hw]
  have hsame : traceOf side ((os++[[(side, Write.started submission)]]).flatten) =
      ⟨some submission, "", []⟩ := by
    rw [flatten_one, traceOf_same]
    rfl
  have hother : traceOf side.other ((os++[[(side, Write.started submission)]]).flatten) =
      traceOf side.other os.flatten := by
    rw [flatten_one, traceOf_other _ _ _ _ (other_ne side).symm]
  refine ⟨?_, ?_, ?_, ?_, ?_, ?_, ?_⟩
  · intro side'
    rcases side_cases side side' with rfl | rfl
    · rw [hsame, hc]
      rfl
    · rw [hother, ho, hs.content]
  · rw [ht, begin_keys]
    exact hs.unique
  · intro x hx
    rw [ht] at hx
    obtain ⟨before, hbefore, hn', -⟩ := mem_begin s submission side x hx
    rw [hn, ← hn']
    exact hs.bound before hbefore
  · intro x hx
    rw [ht] at hx
    obtain ⟨before, hbefore, hn', hs', -⟩ := mem_begin s submission side x hx
    rw [hn, hstream, ← hn', ← hs']
    exact (hs.live before hbefore).imp_left (Failed.more e)
  · intro x hx hxb
    rw [ht] at hx
    obtain ⟨before, hbefore, hn', -, hsame', hnot⟩ := mem_begin s submission side x hx
    obtain rfl := hsame' (hnot hxb)
    rw [hn, hbusy]
    exact hs.fresh before hbefore hxb
  · intro x hx hxb
    rw [ht] at hx
    obtain ⟨before, hbefore, hn', hs', hsame', -⟩ := mem_begin s submission side x hx
    by_cases hkey : x.submission = submission ∧ x.side = side
    · left
      rw [hkey.2, hsame, hkey.1]
    · obtain rfl := hsame' hkey
      rcases side_cases side before.side with hside' | hside'
      · -- Another stream of the same panel is not of this submission, so it is left over.
        right
        rcases hs.live before hbefore with hfail | ⟨hlast, -⟩
        · exact hfail.more e
        · exact absurd ⟨by rw [hlast, hcurrent], hside'⟩ hkey
      · rw [hside', hother, ← hside']
        exact (hs.owned before hbefore hxb).imp_right (Failed.more e)
  · intro side' w hw'
    rcases side_cases side side' with rfl | rfl
    · rw [hsame] at hw'
      cases hw'
    · rw [hother] at hw' ⊢
      exact (hs.authors _ w hw').imp_right (Failed.more e)

theorem text_token (w : Trace) (submission : ℕ) (text : String) :
    (w.write (.token submission text)).text = w.text ++ text := by
  simp [Trace.text, Trace.write]

theorem shown_token (hs : Shown es os s) (e : Event) (submission : ℕ) (side : Side)
    (text : String) (task : StreamTask) (hf : s.find submission side = some task)
    (hb : task.begun = true) (ht : t.tasks = s.tasks) (hn : t.submissions = s.submissions)
    (hw : t.worker = s.worker)
    (hc : (t.panels side).content = (s.panels side).content ++ text)
    (ho : (t.panels side.other).content = (s.panels side.other).content) :
    Shown (es++[e]) (os++[[(side, .token submission text)]]) t := by
  obtain ⟨hmem, hnumber, hside⟩ := find_task s submission side task hf
  have hstream : Streaming t ↔ Streaming s := by simp [Streaming, hw]
  have hbusy : Busy t ↔ Busy s := by simp [Busy, Streaming, hw]
  have hsame : traceOf side ((os++[[(side, Write.token submission text)]]).flatten) =
      (traceOf side os.flatten).write (.token submission text) := by
    rw [flatten_one, traceOf_same]
  have hother : traceOf side.other ((os++[[(side, Write.token submission text)]]).flatten) =
      traceOf side.other os.flatten := by
    rw [flatten_one, traceOf_other _ _ _ _ (other_ne side).symm]
  have howner (side' : Side) :
      (traceOf side' ((os++[[(side, Write.token submission text)]]).flatten)).owner =
        (traceOf side' os.flatten).owner := by
    rcases side_cases side side' with rfl | rfl
    · rw [hsame]
      rfl
    · rw [hother]
  refine ⟨?_, by rw [ht]; exact hs.unique, by rw [ht, hn]; exact hs.bound, ?_, ?_, ?_, ?_⟩
  · intro side'
    rcases side_cases side side' with rfl | rfl
    · rw [hsame, hc, text_token, hs.content]
    · rw [hother, ho, hs.content]
  · intro x hx
    rw [ht] at hx
    rw [hn, hstream]
    exact (hs.live x hx).imp_left (Failed.more e)
  · intro x hx hxb
    rw [ht] at hx
    rw [hn, hbusy]
    exact hs.fresh x hx hxb
  · intro x hx hxb
    rw [ht] at hx
    rw [howner]
    exact (hs.owned x hx hxb).imp_right (Failed.more e)
  · intro side' w hw'
    rw [howner]
    rcases side_cases side side' with rfl | rfl
    · rw [hsame] at hw'
      rcases List.mem_append.mp hw' with hw' | hw'
      · exact (hs.authors _ w hw').imp_right (Failed.more e)
      · obtain rfl := List.mem_singleton.mp hw'
        have howned := hs.owned task hmem hb
        rw [hnumber, hside] at howned
        exact howned.imp_right (Failed.more e)
    · rw [hother] at hw'
      exact (hs.authors _ w hw').imp_right (Failed.more e)

/-- The writes of a step that takes a task away leave the owners, and no token is added. -/
theorem shown_drops (hs : Shown es os s) (e : Event) (submission : ℕ) (side : Side)
    (o : List (Side × Write)) (ht : t.tasks = (s.drop submission side).tasks)
    (hn : t.submissions = s.submissions) (hb : Busy t ↔ Busy s)
    (hlive : ∀ task ∈ t.tasks, task.submission = s.submissions → Streaming s →
      Failed (es++[e]) task.submission task.side.other ∨ Streaming t)
    (hc : ∀ side', (t.panels side').content = (traceOf side' (os++[o]).flatten).text)
    (howner : ∀ side', (traceOf side' (os++[o]).flatten).owner = (traceOf side' os.flatten).owner)
    (htokens : ∀ side', ∀ w ∈ (traceOf side' (os++[o]).flatten).tokens,
      w ∈ (traceOf side' os.flatten).tokens) : Shown (es++[e]) (os++[o]) t := by
  have hsub : ∀ task ∈ t.tasks, task ∈ s.tasks := by
    intro task hmem
    rw [ht] at hmem
    exact ((mem_drop s submission side task).mp hmem).1
  refine ⟨hc, ?_, ?_, ?_, ?_, ?_, ?_⟩
  · rw [ht]
    exact hs.unique.sublist (List.filter_sublist.map _)
  · intro task hmem
    rw [hn]
    exact hs.bound task (hsub task hmem)
  · intro task hmem
    rcases hs.live task (hsub task hmem) with hfail | ⟨hnumber, hstream⟩
    · exact Or.inl (hfail.more e)
    · rw [hn]
      exact (hlive task hmem hnumber hstream).imp_right fun hw => ⟨hnumber, hw⟩
  · intro task hmem hbegun
    rw [hn, hb]
    exact hs.fresh task (hsub task hmem) hbegun
  · intro task hmem hbegun
    rw [howner]
    exact (hs.owned task (hsub task hmem) hbegun).imp_right (Failed.more e)
  · intro side' w hw
    rw [howner]
    exact (hs.authors side' w (htokens side' w hw)).imp_right (Failed.more e)

theorem shown_ends (hs : Shown es os s) (e : Event) (submission : ℕ) (side : Side)
    (o : List (Side × Write)) (ht : t.tasks = (s.drop submission side).tasks)
    (hn : t.submissions = s.submissions)
    (hw : Streaming t ↔ Streaming s ∧ ∃ task ∈ t.tasks, task.submission = s.submissions)
    (hb : Busy t ↔ Busy s)
    (hc : o = [] ∧ (t.panels side).content = (s.panels side).content ∨
      ∃ message, o = [(side, .error message)] ∧ (t.panels side).content = message)
    (ho : (t.panels side.other).content = (s.panels side.other).content) :
    Shown (es++[e]) (os++[o]) t := by
  have hlive : ∀ task ∈ t.tasks, task.submission = s.submissions → Streaming s →
      Failed (es++[e]) task.submission task.side.other ∨ Streaming t :=
    fun task hmem hnumber hstream => Or.inr (hw.mpr ⟨hstream, task, hmem, hnumber⟩)
  rcases hc with ⟨rfl, hc⟩ | ⟨message, rfl, hc⟩
  · have hflat : (os++[[]]).flatten = os.flatten := by simp
    refine shown_drops hs e submission side [] ht hn hb hlive ?_ ?_ ?_
    · intro side'
      rw [hflat, ← hs.content]
      rcases side_cases side side' with rfl | rfl
      · exact hc
      · exact ho
    · intro side'
      rw [hflat]
    · intro side' w hw'
      rwa [hflat] at hw'
  · have hsame : traceOf side ((os++[[(side, Write.error message)]]).flatten) =
        ⟨(traceOf side os.flatten).owner, message, []⟩ := by
      rw [flatten_one, traceOf_same]
      rfl
    have hother : traceOf side.other ((os++[[(side, Write.error message)]]).flatten) =
        traceOf side.other os.flatten := by
      rw [flatten_one, traceOf_other _ _ _ _ (other_ne side).symm]
    refine shown_drops hs e submission side _ ht hn hb hlive ?_ ?_ ?_
    · intro side'
      rcases side_cases side side' with rfl | rfl
      · rw [hsame, hc]
        rfl
      · rw [hother, ho, hs.content]
    · intro side'
      rcases side_cases side side' with rfl | rfl
      · rw [hsame]
      · rw [hother]
    · intro side' w hw'
      rcases side_cases side side' with rfl | rfl
      · rw [hsame] at hw'
        cases hw'
      · rwa [hother] at hw'

theorem shown_fails (hs : Shown es os s) (submission : ℕ) (side : Side) (failure : Failure)
    (ht : t.tasks = (s.drop submission side).tasks) (hn : t.submissions = s.submissions)
    (hw : Streaming t ↔ Streaming s ∧ submission ≠ s.submissions) (hb : Busy t ↔ Busy s)
    (hc : ∀ side, (t.panels side).content = (s.panels side).content) :
    Shown (es++[.fails submission side failure]) (os++[[]]) t := by
  have hflat : (os++[[]]).flatten = os.flatten := by simp
  refine shown_drops hs _ submission side [] ht hn hb ?_ ?_ ?_ ?_
  · intro task hmem hnumber hstream
    by_cases hcurrent : submission = s.submissions
    · -- What is left of this submission has just lost its sibling.
      left
      rw [ht] at hmem
      have hkey := ((mem_drop s submission side task).mp hmem).2
      have hside : task.side = side.other := by
        rcases side_cases side task.side with hside | hside
        · exact absurd ⟨by rw [hnumber, hcurrent], hside⟩ hkey
        · exact hside
      have hback : side.other.other = side := by cases side <;> rfl
      rw [hnumber, ← hcurrent, hside, hback]
      exact ⟨failure, by simp⟩
    · exact Or.inr (hw.mpr ⟨hstream, hcurrent⟩)
  · intro side'
    rw [hflat, hc, hs.content]
  · intro side'
    rw [hflat]
  · intro side' w hw'
    rwa [hflat] at hw'

theorem shown_clears (hs : Shown es os s) (e : Event) (ht : t.tasks = s.tasks)
    (hn : t.submissions = s.submissions) (hw : t.worker = s.worker)
    (hc : ∀ side, (t.panels side).content = "") :
    Shown (es++[e]) (os++[[(.a, .cleared), (.b, .cleared)]]) t := by
  have hstream : Streaming t ↔ Streaming s := by simp [Streaming, hw]
  have hbusy : Busy t ↔ Busy s := by simp [Busy, Streaming, hw]
  have htrace (side : Side) :
      traceOf side ((os++[[(Side.a, Write.cleared), (Side.b, Write.cleared)]]).flatten) =
        ⟨(traceOf side os.flatten).owner, "", []⟩ := by
    rw [flatten_one, traceOf_append]
    cases side <;> rfl
  refine ⟨?_, by rw [ht]; exact hs.unique, by rw [ht, hn]; exact hs.bound, ?_, ?_, ?_, ?_⟩
  · intro side
    rw [htrace, hc]
    rfl
  · intro x hx
    rw [ht] at hx
    rw [hn, hstream]
    exact (hs.live x hx).imp_left (Failed.more e)
  · intro x hx hxb
    rw [ht] at hx
    rw [hn, hbusy]
    exact hs.fresh x hx hxb
  · intro x hx hxb
    rw [ht] at hx
    rw [htrace]
    exact (hs.owned x hx hxb).imp_right (Failed.more e)
  · intro side w hw'
    rw [htrace] at hw'
    cases hw'

theorem shown_step (hs : Shown es os s) (e : Event) (o : List (Side × Write))
    (h : Change s t e o) : Shown (es++[e]) (os++[o]) t := by
  cases h with
  | quiet _ ht hn hw hb hc =>
    exact hs.keep e ht hn hc (fun _ _ _ hstream => Or.inr (hw.mpr hstream))
      fun _ _ _ hbusy => hb.mpr hbusy
  | gathers _ prompt hidle hw ht hn hc => exact shown_gathers hs _ prompt hidle hw ht hn hc
  | begins submission side _ task hf hb ht hn hw hc ho =>
    exact shown_begins hs _ submission side task hf hb ht hn hw hc ho
  | token submission side text task hf hb ht hn hw hc ho =>
    exact shown_token hs _ submission side text task hf hb ht hn hw hc ho
  | ends submission side _ task _ _ ht hn hw hb hc ho =>
    exact shown_ends hs _ submission side o ht hn hw hb hc ho
  | fails submission side failure _ _ ht hn hw hb hc =>
    exact shown_fails hs submission side failure ht hn hw hb hc
  | resumes _ hidle hb ht hn _ hc =>
    exact hs.keep _ ht hn hc (fun _ _ _ hstream => absurd hstream hidle)
      fun task hmem hbegun => by simp [hb task hmem] at hbegun
  | clears ht hn hw hc => exact shown_clears hs _ ht hn hw hc

end Steps

theorem lock_start (compare : Option (String × String)) : Lock (.start compare) :=
  ⟨rfl, nofun, nofun, fun h => by rcases h with h | h <;> cases h⟩

theorem shown_run (compare : Option (String × String)) (s : CompareApp) (es : List Event)
    (os : List (List (Side × Write))) (h : run step (.start compare) es = some (s, os)) :
    Lock s ∧ Shown es os s :=
  run_history (fun es os s => Lock s ∧ Shown es os s)
    (fun _ _ s e t o hs hstep => ⟨lock_step s t e o hs.1 hstep,
      shown_step hs.2 e o (step_change s t e o hs.1 hstep)⟩)
    _ s es os ⟨lock_start compare, shown_start compare⟩ h

/-- What a panel shows: the text it was last set to, nothing or an error's message, and
the tokens since, each of the stream that was started there last or of one whose
sibling failed. -/
theorem panel_text (compare : Option (String × String)) (s : CompareApp) (es : List Event)
    (os : List (List (Side × Write))) (h : run step (.start compare) es = some (s, os))
    (side : Side) : (s.panels side).content = (traceOf side os.flatten).text ∧
      ∀ w ∈ (traceOf side os.flatten).tokens,
        (traceOf side os.flatten).owner = some w.1 ∨ Failed es w.1 side.other :=
  ⟨(shown_run compare s es os h).2.content side, (shown_run compare s es os h).2.authors side⟩

/-- The first prompt loses one of its streams; the other one writes on. -/
def leftoverEvents : List Event :=
  [.loaded true true, .submitted ['o', 'l', 'd'], .workerRuns, .refreshed true, .begins 1 .a 0,
    .begins 1 .b 0, .fails 1 .a .readTimeout, .resumes 1, .submitted ['n', 'e', 'w'], .workerRuns,
    .refreshed true, .begins 2 .a 2, .begins 2 .b 2, .token 1 .b "old", .token 2 .b "new"]

theorem panel_text_mixed : ∃ s os,
    run step (.start (some ("x", "y"))) leftoverEvents = some (s, os) ∧
      (s.panels .b).content = "oldnew" :=
  ⟨_, _, rfl, (panel_text (some ("x", "y")) _ leftoverEvents _ rfl .b).1⟩

def failureKey : Event → Option (ℕ × Side)
  | .fails submission side _ => some (submission, side)
  | _ => none

def failures (es : List Event) : List (ℕ × Side) := es.filterMap failureKey

theorem failed_mem (es : List Event) (submission : ℕ) (side : Side)
    (h : Failed es submission side) : (submission, side) ∈ failures es := by
  obtain ⟨failure, hf⟩ := h
  exact List.mem_filterMap.mpr ⟨_, hf, rfl⟩

/-- Every stream left over is charged to the failure of its sibling. -/
theorem leftovers_le (es : List Event) (tasks : List StreamTask)
    (hu : (tasks.map fun task => (task.submission, task.side)).Nodup)
    (hf : ∀ task ∈ tasks, Failed es task.submission task.side.other) :
    tasks.length ≤ (failures es).length := by
  have hother : Function.Injective (fun key : ℕ × Side => (key.1, key.2.other)) := by
    rintro ⟨m, left⟩ ⟨n, right⟩ hkey
    obtain ⟨hn, hside⟩ := Prod.mk.inj hkey
    have hsame : left = right := by cases left <;> cases right <;> first | rfl | cases hside
    exact Prod.ext hn hsame
  have hnodup := hu.map hother
  have hsub : (tasks.map fun task => (task.submission, task.side)).map
      (fun key : ℕ × Side => (key.1, key.2.other)) ⊆ failures es := by
    intro key hkey
    rw [List.map_map] at hkey
    obtain ⟨task, hmem, rfl⟩ := List.mem_map.mp hkey
    exact failed_mem es _ _ (hf task hmem)
  simpa using (List.subperm_of_subset hnodup hsub).length_le

theorem current_le (submission : ℕ) (tasks : List StreamTask)
    (hu : (tasks.map fun task => (task.submission, task.side)).Nodup)
    (hn : ∀ task ∈ tasks, task.submission = submission) : tasks.length ≤ 2 := by
  have hsub : (tasks.map fun task => (task.submission, task.side)) ⊆
      [(submission, .a), (submission, .b)] := by
    intro key hkey
    obtain ⟨task, hmem, rfl⟩ := List.mem_map.mp hkey
    rw [hn task hmem]
    cases task.side <;> simp
  simpa using (List.subperm_of_subset hu hsub).length_le

theorem shown_tasks (es : List Event) (os : List (List (Side × Write))) (s : CompareApp)
    (hs : Shown es os s) : s.tasks.length ≤ (failures es).length+2 ∧
      (¬ Streaming s → s.tasks.length ≤ (failures es).length) := by
  have hnone : ¬ Streaming s → s.tasks.length ≤ (failures es).length := by
    intro hidle
    refine leftovers_le es s.tasks hs.unique fun task hmem => ?_
    rcases hs.live task hmem with hf | ⟨-, hstream⟩
    · exact hf
    · exact absurd hstream hidle
  refine ⟨?_, hnone⟩
  have hcurrent := current_le s.submissions
    (s.tasks.filter fun task => task.submission = s.submissions)
    (hs.unique.sublist (List.filter_sublist.map _)) fun task hmem => by
      simpa using (List.mem_filter.mp hmem).2
  have hleft := leftovers_le es (s.tasks.filter fun task => ¬ task.submission = s.submissions)
    (hs.unique.sublist (List.filter_sublist.map _)) fun task hmem => by
      obtain ⟨hmem, hne⟩ := List.mem_filter.mp hmem
      rcases hs.live task hmem with hf | ⟨hsame, -⟩
      · exact hf
      · exact absurd hsame (by simpa using hne)
  have hsplit : s.tasks.length =
      (s.tasks.filter fun task => decide (task.submission = s.submissions)).length+
        (s.tasks.filter fun task => !decide (task.submission = s.submissions)).length :=
    List.length_eq_length_filter_add _
  simp only [decide_not] at hleft
  omega

/-- The lock of the input is held exactly while a submission runs, and beside
the two streams of that submission there is at most one for every failure so far. -/
theorem one_submission (compare : Option (String × String)) (s : CompareApp) (es : List Event)
    (os : List (List (Side × Write))) (h : run step (.start compare) es = some (s, os)) :
    s.inFlight = s.worker.isSome ∧ (s.inFlight = true → s.inputDisabled = true) ∧
      s.tasks.length ≤ (failures es).length+2 ∧
      (s.inFlight = false → s.tasks.length ≤ (failures es).length) := by
  obtain ⟨hlock, hshown⟩ := shown_run compare s es os h
  obtain ⟨hall, hidle⟩ := shown_tasks es os s hshown
  refine ⟨hlock.held, hlock.disabled, hall, fun hf => hidle ?_⟩
  rintro ⟨prompt, hw⟩
  rw [hlock.held, hw] at hf
  cases hf

theorem one_submission_leftover : ∃ s os,
    run step (.start (some ("x", "y"))) leftoverEvents = some (s, os) ∧ s.tasks.length ≤ 3 :=
  ⟨_, _, rfl, (one_submission (some ("x", "y")) _ leftoverEvents _ rfl).2.2.1⟩

end InferenceX.CompareWriters
