import InferenceX.Library.KeyedWrites
import InferenceX.MetricsRecording

/-!
# What the middleware lets through

A plain reply is drained and made again from a dictionary of its headers. The
dictionary keeps one header of a name, and whatever a body raises is caught
with what came before it. So such a reply passes unchanged exactly where its
header names are distinct and its body is complete. Everything else passes.
-/

set_option autoImplicit false

namespace InferenceX.Transparency
open Library.KeyedWrites Library.Utf8Text
open InferenceX.PythonValues InferenceX.ChatRoute InferenceX.SseRecording
open InferenceX.MetricsRecording

def others (headers : List (String × String)) : List (String × String) :=
  (headers.map fun p => (p.1.toLower, p.2)).filter fun p => p.1 ≠ "content-length"

/-- `k.lower() for k, v in headers`. -/
def lowerNames (headers : List (String × String)) : List String :=
  headers.map fun p => p.1.toLower

/-- `if k.lower() != "content-length"`. -/
def withoutLength (headers : List (String × String)) : List (String × String) :=
  headers.filter fun p => p.1.toLower ≠ "content-length"

/-- The response class of the framework keeps the headers it is given, and adds
a content type only for a media type that none of them tells. -/
structure KeepsHeaders (C : Responses) : Prop where
  given : ∀ content status headers mediaType,
    mediaType = none ∨ "content-type" ∈ lowerNames headers →
      others (C.head content status headers mediaType).headers = others headers
  typed : ∀ content status headers mediaType,
    mediaType ≠ none → "content-type" ∉ lowerNames headers →
      ∃ value, others (C.head content status headers mediaType).headers =
        others headers++[("content-type", value)]

theorem dict_put (d : List (String × String)) (p : String × String)
    (hd : (d.map Prod.fst).Nodup) :
    (if d.any (fun q => q.1 = p.1) then d.map fun q => if q.1 = p.1 then p else q else d++[p]) =
      put p d := by
  induction d with
  | nil => rfl
  | cons x d ih =>
    obtain ⟨hx, hd⟩ := List.nodup_cons.mp hd
    rw [put]
    by_cases hxp : x.1 = p.1
    · have hrest : (d.map fun q => if q.1 = p.1 then p else q) = d := by
        refine (List.map_congr_left fun q hq => ?_).trans (List.map_id d)
        exact if_neg fun hqp => hx (List.mem_map.mpr ⟨q, hq, hqp.trans hxp.symm⟩)
      simp [hxp, hrest]
    · rw [if_neg hxp, ← ih hd]
      have hany : (x::d).any (fun q => q.1 = p.1) = d.any fun q => q.1 = p.1 := by
        simp [hxp]
      rw [hany]
      split_ifs with h
      · simp [hxp]
      · rfl

theorem dictOf_puts (items : List (String × String)) : dictOf items = puts items [] := by
  have hfold : ∀ d : List (String × String), (d.map Prod.fst).Nodup →
      items.foldl (fun d p => if d.any (fun q => q.1 = p.1) then
        d.map fun q => if q.1 = p.1 then p else q else d++[p]) d = puts items d := by
    induction items with
    | nil => exact fun _ _ => rfl
    | cons p items ih =>
      intro d hd
      rw [List.foldl_cons, dict_put d p hd, ih _ (put_nodup p d hd)]
      rfl
  exact hfold [] List.nodup_nil

section Dict
variable (headers : List (String × String))

theorem others_map :
    others headers = (withoutLength headers).map fun p => (p.1.toLower, p.2) := by
  rw [others, withoutLength, List.filter_map]
  rfl

theorem others_dict : others (dictOf (withoutLength headers)) =
    (dictOf (withoutLength headers)).map fun p => (p.1.toLower, p.2) := by
  have hall : withoutLength (dictOf (withoutLength headers)) = dictOf (withoutLength headers) := by
    rw [withoutLength, List.filter_eq_self, dictOf_puts]
    intro p hp
    rcases mem_puts _ _ p hp with hp | hp
    · exact (List.mem_filter.mp hp).2
    · cases hp
  rw [others_map, hall]

/-- The dictionary has all headers exactly where their names are distinct. -/
theorem others_perm :
    (others (dictOf (withoutLength headers))).Perm (others headers) ↔
      ((withoutLength headers).map Prod.fst).Nodup := by
  rw [others_dict, others_map, dictOf_puts]
  constructor
  · intro hperm
    by_contra hdup
    have hshort := puts_short (withoutLength headers) [] List.nodup_nil hdup
    have hlen := hperm.length_eq
    rw [List.length_map, List.length_map] at hlen
    rw [List.length_nil, Nat.zero_add] at hshort
    omega
  · intro hnodup
    have hfresh := puts_fresh (withoutLength headers) [] hnodup
    rw [hfresh, List.nil_append]

theorem dict_typed : "content-type" ∈ lowerNames (dictOf (withoutLength headers)) ↔
    "content-type" ∈ lowerNames headers := by
  have hkeys : ∀ k, k ∈ (dictOf (withoutLength headers)).map Prod.fst ↔
      k ∈ (withoutLength headers).map Prod.fst := fun k => by
    rw [dictOf_puts, mem_puts_keys]
    exact or_iff_left (List.not_mem_nil)
  have hlower : ∀ hs : List (String × String), "content-type" ∈ lowerNames hs ↔
      ∃ k ∈ hs.map Prod.fst, k.toLower = "content-type" := by
    intro hs
    simp [lowerNames]
  rw [hlower, hlower]
  simp only [hkeys]
  constructor
  · rintro ⟨k, hk, hname⟩
    obtain ⟨p, hp, rfl⟩ := List.mem_map.mp hk
    exact ⟨p.1, List.mem_map_of_mem (List.mem_filter.mp hp).1, hname⟩
  · rintro ⟨k, hk, hname⟩
    obtain ⟨p, hp, rfl⟩ := List.mem_map.mp hk
    exact ⟨p.1, List.mem_map_of_mem (List.mem_filter.mpr ⟨hp, by simp [hname]⟩), hname⟩

end Dict

/-- The client has the status, the other headers and the bytes of the reply, and
a body that raised is not one that ended. -/
def Transparent (r : Response) : Outcome → Prop
  | .raised _ => False
  | .response head chunks exit => head.status = r.head.status ∧
      (others head.headers).Perm (others r.head.headers) ∧ chunks.flatten = r.bytes ∧
      (r.exit.isRaised = true → exit ≠ none)

/-- No name but the length occurs twice, and the content type is told where
there is a media type. -/
def PlainHeaders (r : Response) : Prop :=
  ((withoutLength r.head.headers).map Prod.fst).Nodup ∧
    (r.mediaType = none ∨ "content-type" ∈ lowerNames r.head.headers)

/-- A body that the middleware drains is closed by nobody. -/
def Drains (py : Interpreter) (request : Request) (r : Response) : Prop :=
  Rebuilds py request r → r.exit ≠ .closed

section Branches
variable (C : Responses) (sinks : Sinks) (requestId : String) (py : Interpreter) (clock : Clock)
  (request : Request) (r : Response)

theorem dispatch_rebuilds (h : Rebuilds py request r) :
    (dispatch C sinks requestId py clock request (.returns r)).outcome = rebuild C r r.bytes := by
  obtain ⟨hscrape, hc, hstatus, hstream, hevent⟩ := h
  simp only [dispatch, hscrape, hc, hstatus, hstream, hevent, Bool.false_eq_true, if_false,
    and_true, and_false, if_true, buffer_bytes, recording_eq]

theorem dispatch_untouched (hw : ¬ Wraps request r) (hb : ¬ Rebuilds py request r) :
    (dispatch C sinks requestId py clock request (.returns r)).outcome = untouched r := by
  cases hscrape : isScrape request.path with
  | true => simp only [dispatch, hscrape, if_true]
  | false =>
    have hwrap : ¬ (isChat request ∧ r.head.status = 200 ∧ isEventStreamResponse r = true) :=
      fun h => hw ⟨hscrape, h⟩
    by_cases hc : isChat request
    · have hbuffer : ¬ (r.head.status = 200 ∧
          (extractChatRequestMetadata py request.body).2 = false ∧
          isEventStreamResponse r = false) := fun h => hb ⟨hscrape, hc, h⟩
      simp only [hc, true_and] at hwrap
      simp only [dispatch, hscrape, Bool.false_eq_true, if_false, hc, true_and, if_true,
        if_neg hwrap, if_neg hbuffer, recording_eq]
    · simp only [dispatch, hscrape, Bool.false_eq_true, if_false, hc, false_and, recording_eq]

theorem untouched_transparent : Transparent r (untouched r) := by
  show _ ∧ _ ∧ _ ∧ _
  refine ⟨rfl, List.Perm.refl _, rfl, fun h hexit => ?_⟩
  cases hr : r.exit with
  | raised e =>
    rw [hr] at hexit
    cases hexit
  | completed =>
    rw [hr] at h
    cases h
  | closed =>
    rw [hr] at h
    cases h

/-- A wrapped stream passes, with its own exception or that of the rate. -/
theorem wrapped_transparent (h : Wraps request r) :
    Transparent r (dispatch C sinks requestId py clock request (.returns r)).outcome := by
  obtain ⟨model, hd⟩ := dispatch_wraps C sinks requestId py clock request r h
  rw [hd]
  by_cases hfits : RateFits py clock.start clock.finish r.bytes
  · rw [wrapAndRecord_fits _ _ _ _ _ _ hfits]
    exact untouched_transparent r
  · rw [wrapAndRecord_overflow _ _ _ _ _ _ hfits]
    exact ⟨rfl, List.Perm.refl _, rfl, fun _ hexit => by cases hexit⟩

/-- The headers made again are those of the reply exactly where they are plain. -/
theorem rebuilt_headers (hC : KeepsHeaders C) (content : List UInt8) :
    (others (C.head content r.head.status (dictOf (withoutLength r.head.headers))
        r.mediaType).headers).Perm (others r.head.headers) ↔ PlainHeaders r := by
  by_cases htold : r.mediaType = none ∨ "content-type" ∈ lowerNames r.head.headers
  · rw [hC.given _ _ _ _ (htold.imp_right (dict_typed _).mpr), others_perm]
    exact (and_iff_left htold).symm
  · obtain ⟨hmedia, hname⟩ := not_or.mp htold
    obtain ⟨value, hvalue⟩ := hC.typed content r.head.status
      (dictOf (withoutLength r.head.headers)) r.mediaType hmedia
      fun h => hname ((dict_typed _).mp h)
    refine iff_of_false (fun hperm => hname ?_) fun h => htold h.2
    have hadded : ("content-type", value) ∈ others r.head.headers :=
      hperm.subset (by rw [hvalue]; simp)
    obtain ⟨p, hp, hpe⟩ := List.mem_map.mp (List.mem_filter.mp hadded).1
    exact List.mem_map.mpr ⟨p, hp, congrArg Prod.fst hpe⟩

theorem rebuilt_transparent (hC : KeepsHeaders C) (hexit : r.exit ≠ .closed) :
    Transparent r (rebuild C r r.bytes) ↔ r.exit = .completed ∧ PlainHeaders r := by
  have hends : (r.exit.isRaised = true → (none : Option PyError) ≠ none) ↔
      r.exit = .completed := by
    cases hr : r.exit with
    | completed => simp [BodyExit.isRaised]
    | raised e => simp [BodyExit.isRaised]
    | closed => exact absurd hr hexit
  have hheaders := rebuilt_headers C r hC r.bytes
  show _ ∧ _ ∧ _ ∧ _ ↔ _
  rw [C.status_kept, ← withoutLength, hheaders, hends]
  simp [and_comm]

end Branches

def withCharset (mediaType : String) : String :=
  let told := mediaType.toLower.toList.tails.any fun t => "charset=".toList.isPrefixOf t
  if "text/".toList.isPrefixOf mediaType.toList ∧ told = false then mediaType++"; charset=utf-8"
  else mediaType

/-- `Response.init_headers`: the given headers under lower-case names, then a
length and a content type where they are missing. -/
def starlette : Responses where
  head content status headers mediaType :=
    let bodiless := status < 200 ∨ status = 204 ∨ status = 304
    let length := if "content-length" ∈ lowerNames headers ∨ bodiless then []
      else [("content-length", toString content.length)]
    let type := if "content-type" ∈ lowerNames headers then []
      else mediaType.toList.map fun m => ("content-type", withCharset m)
    ⟨status, headers.map (fun p => (p.1.toLower, p.2))++length++type⟩
  status_kept _ _ _ _ := rfl

theorem toLower_idem (s : String) : s.toLower.toLower = s.toLower := by
  have hchar : ∀ c : Char, c.toLower.toLower = c.toLower := fun c => by
    unfold Char.toLower
    grind
  have hcomp : Char.toLower ∘ Char.toLower = Char.toLower := funext hchar
  rw [String.toLower, String.toLower, String.map_map, hcomp]

theorem others_append (xs ys : List (String × String)) :
    others (xs++ys) = others xs++others ys := by
  rw [others, List.map_append, List.filter_append]
  rfl

theorem others_lower (headers : List (String × String)) :
    others (headers.map fun p => (p.1.toLower, p.2)) = others headers := by
  simp [others, Function.comp_def, toLower_idem]

theorem starlette_keeps : KeepsHeaders starlette := by
  have hlength : ∀ (c : Prop) [Decidable c] (n : String),
      others (if c then [] else [("content-length", n)]) = [] := fun c _ n => by
    split_ifs
    · rfl
    · have hlower : "content-length".toLower = "content-length" := by decide +kernel
      simp [others, hlower]
  have htype : ∀ value, others [("content-type", value)] = [("content-type", value)] :=
    fun value => by
      have hlower : "content-type".toLower = "content-type" := by decide +kernel
      simp [others, hlower]
  constructor
  · intro content status headers mediaType h
    simp only [starlette, others_append, others_lower, hlength, List.append_nil]
    rcases h with rfl | h
    · simp [others]
    · rw [if_pos h]
      exact List.append_nil _
  · intro content status headers mediaType hm h
    obtain ⟨m, rfl⟩ := Option.ne_none_iff_exists'.mp hm
    refine ⟨withCharset m, ?_⟩
    simp only [starlette, others_append, others_lower, hlength, List.append_nil, if_neg h]
    exact congrArg _ (htype _)

/-- A reply to a chat request passes unchanged exactly where it is not made
again, or is complete and has plain headers. Every other path is untouched. -/
theorem transparent_iff (C : Responses) (sinks : Sinks) (requestId : String) (py : Interpreter)
    (clock : Clock) (request : Request) (r : Response) (hC : KeepsHeaders C)
    (hd : Drains py request r) :
    (Transparent r (dispatch C sinks requestId py clock request (.returns r)).outcome ↔
      (Rebuilds py request r → r.exit = .completed ∧ PlainHeaders r)) ∧
    (¬ isChat request →
      (dispatch C sinks requestId py clock request (.returns r)).outcome = untouched r) := by
  constructor
  · by_cases hb : Rebuilds py request r
    · rw [dispatch_rebuilds C sinks requestId py clock request r hb,
        rebuilt_transparent C r hC (hd hb)]
      exact ⟨fun h _ => h, fun h => h hb⟩
    · apply iff_of_true _ fun h => absurd h hb
      by_cases hw : Wraps request r
      · exact wrapped_transparent C sinks requestId py clock request r hw
      · rw [dispatch_untouched C sinks requestId py clock request r hw hb]
        exact untouched_transparent r
  · intro hc
    exact dispatch_untouched C sinks requestId py clock request r (fun h => hc h.2.1)
      fun h => hc h.2.1

def plainRequest : Request := ⟨"POST", chatPath, .ok (encode "\x7b\x7d".toList)⟩

def replyWith (cookies : List (String × String)) (exit : BodyExit) : Response :=
  ⟨⟨200, ("content-type", "application/json")::cookies⟩, none,
    [⟨.bytes (encode "\x7b\x7d".toList), 1⟩], exit⟩

theorem replyWith_rebuilds (cookies : List (String × String)) (exit : BodyExit) :
    Rebuilds cpython plainRequest (replyWith cookies exit) := by
  have htype : "content-type".toLower = "content-type" := by decide +kernel
  have hevent : isEventStreamResponse (replyWith cookies exit) = false := by
    simp only [isEventStreamResponse, isEventStream, replyWith, List.find?_cons, htype,
      decide_true, Option.any_some]
    decide +kernel
  exact ⟨by decide, ⟨rfl, rfl⟩, rfl, by decide +kernel, hevent⟩

/-- A reply that is made again arrives in one chunk under its new headers. -/
theorem replyWith_served (cookies : List (String × String)) (exit : BodyExit)
    (headers : List (String × String))
    (h : starlette.head (encode "\x7b\x7d".toList) 200
      (dictOf (withoutLength (("content-type", "application/json")::cookies))) none =
        ⟨200, headers⟩) :
    (dispatch starlette quietSinks "00" cpython ⟨0, 1, 2⟩ plainRequest
      (.returns (replyWith cookies exit))).outcome =
        .response ⟨200, headers⟩ [encode "\x7b\x7d".toList] none := by
  rw [← h]
  exact dispatch_rebuilds starlette quietSinks "00" cpython ⟨0, 1, 2⟩ plainRequest _
    (replyWith_rebuilds cookies exit)

theorem transparent_cookie : Transparent (replyWith [("set-cookie", "a=1")] .completed)
    (dispatch starlette quietSinks "00" cpython ⟨0, 1, 2⟩ plainRequest
      (.returns (replyWith [("set-cookie", "a=1")] .completed))).outcome := by
  refine (transparent_iff starlette quietSinks "00" cpython ⟨0, 1, 2⟩ plainRequest
    (replyWith [("set-cookie", "a=1")] .completed) starlette_keeps
    (fun _ h => by cases h)).1.mpr fun _ => ⟨rfl, ?_, Or.inl rfl⟩
  decide +kernel

/-- Of two cookies the client has the last, and a body that raised has ended. -/
theorem reply_changed :
    let cookies := [("set-cookie", "a=1"), ("set-cookie", "b=2")]
    let served := fun r => (dispatch starlette quietSinks "00" cpython ⟨0, 1, 2⟩ plainRequest
      (.returns r)).outcome
    let body := encode "\x7b\x7d".toList
    let raised : Raised := ⟨.runtimeError "connection lost", rfl⟩
    served (replyWith cookies .completed) = .response ⟨200, [("content-type", "application/json"),
        ("set-cookie", "b=2"), ("content-length", "2")]⟩ [body] none ∧
    ¬ Transparent (replyWith cookies .completed) (served (replyWith cookies .completed)) ∧
    served (replyWith [] (.raised raised)) = .response ⟨200,
        [("content-type", "application/json"), ("content-length", "2")]⟩ [body] none ∧
    ¬ Transparent (replyWith [] (.raised raised)) (served (replyWith [] (.raised raised))) := by
  intro cookies served body raised
  have htwo : served (replyWith cookies .completed) = _ := replyWith_served cookies .completed
    [("content-type", "application/json"), ("set-cookie", "b=2"), ("content-length", "2")]
    (by decide +kernel)
  have hraised : served (replyWith [] (.raised raised)) = _ := replyWith_served [] (.raised raised)
    [("content-type", "application/json"), ("content-length", "2")] (by decide +kernel)
  refine ⟨htwo, ?_, hraised, ?_⟩
  · rw [htwo]
    rintro ⟨-, hperm, -⟩
    have hlen := hperm.length_eq
    revert hlen
    decide +kernel
  · rw [hraised]
    rintro ⟨-, -, -, hends⟩
    exact hends rfl rfl

end InferenceX.Transparency
