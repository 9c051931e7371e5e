import SlotWatch.Proofs.Requests

/-!
# SlotWatch.Proofs.Inquiry

What a source has been asked, and what it has answered, request by request
(`inquiries`).  This is finer than which requests it has granted: a refused stop shows
in it, and so does a stop that has never been asked for.

1. Feeds that are left are stopped one after the other up to the first refusal
   (`Stopping`).
2. Starts that are taken back are all stopped, whatever the source answers.
3. Feeds are started up to the first refusal, and then those started before it are taken
   back (`inquiries_startAll_of_error`).
-/

namespace SlotWatch

variable {σ ε : Type}

/-! ## inquiries on a trace -/

/-- A request that was put to the source, and its answer. -/
structure Inquiry where
  request : Request
  feed : Feed
  answer : Except Failure Unit

/-- A request that the source grants. -/
def Inquiry.ok (request : Request) (feed : Feed) : Inquiry := ⟨request, feed, .ok ()⟩

def Event.inquiry? : Event σ ε → Option Inquiry
  | .asked request feed answer => some ⟨request, feed, answer⟩
  | _ => none

/-- What the source has been asked, in order. -/
def inquiries (trace : List (Event σ ε)) : List Inquiry :=
  (trace.filterMap Event.inquiry?).reverse

/-- The latest inquiry comes last. -/
theorem inquiries_cons (e : Event σ ε) (es : List (Event σ ε)) :
    inquiries (e :: es) = inquiries es ++ e.inquiry?.toList := by
  unfold inquiries
  cases h : e.inquiry? <;> simp [h]

/-- What is no request adds no inquiry. -/
theorem inquiries_cons_of_none {e : Event σ ε} (h : e.inquiry? = none) (es : List (Event σ ε)) :
    inquiries (e :: es) = inquiries es := by
  simp [inquiries_cons, h]

theorem inquiries_append_of_none {es : List (Event σ ε)} (h : ∀ e ∈ es, e.inquiry? = none)
    (trace : List (Event σ ε)) : inquiries (es ++ trace) = inquiries trace := by
  rw [inquiries, List.filterMap_append, List.filterMap_eq_nil_iff.mpr h, List.nil_append,
    ← inquiries]

/-! ## inquiries and grants -/

/-- What an inquiry says the source has granted for a feed. -/
def Inquiry.grant? (feed : Feed) : Inquiry → Option Request
  | ⟨request, about, .ok ()⟩ => if about = feed then some request else none
  | _ => none

/-- What has been granted can be read off the inquiries. -/
theorem granted_eq (feed : Feed) (trace : List (Event σ ε)) :
    granted feed trace = ((inquiries trace).filterMap (Inquiry.grant? feed)).reverse := by
  have hgrant : Event.grant? (σ := σ) (ε := ε) feed = fun e =>
      e.inquiry?.bind (Inquiry.grant? feed) := by
    funext e
    cases e with
    | asked request about answer => cases answer <;> rfl
    | _ => rfl
  rw [granted, inquiries, hgrant, List.filterMap_reverse, List.reverse_reverse,
    List.filterMap_filterMap]

/-- Of different feeds that are granted a request, each is granted it once. -/
theorem filterMap_grant_ok (request : Request) (feed : Feed) {feeds : List Feed}
    (hnodup : feeds.Nodup) :
    (feeds.map (Inquiry.ok request)).filterMap (Inquiry.grant? feed) =
      if feed ∈ feeds then [request] else [] := by
  induction feeds with
  | nil => rfl
  | cons f fs ih =>
      obtain ⟨hnew, hnodup⟩ := List.nodup_cons.mp hnodup
      have hothers := ih hnodup
      by_cases hf : f = feed
      · subst hf
        simp_all [Inquiry.ok, Inquiry.grant?]
      · simp_all [Inquiry.ok, Inquiry.grant?, Ne.symm hf]

/-! ## stopping up to a refusal -/

/-- What becomes of feeds that are to be stopped one after the other, until the source
refuses one. -/
inductive Stopping : List Feed → List Inquiry → Prop where
  | done : Stopping [] []
  | granted (feed : Feed) (h : Stopping feeds told) :
      Stopping (feed :: feeds) (.ok .stop feed :: told)
  | refused (feed : Feed) (feeds : List Feed) (e : Failure) :
      Stopping (feed :: feeds) [⟨.stop, feed, .error e⟩]

namespace Stopping

variable {feeds : List Feed} {told : List Inquiry}

/-- The feeds that the source is told of come first, in order. -/
theorem isPrefix (h : Stopping feeds told) : told.map (·.feed) <+: feeds := by
  induction h with
  | done => exact List.prefix_rfl
  | granted feed _ ih => exact (List.prefix_cons_inj feed).mpr ih
  | refused feed feeds e => exact ⟨feeds, rfl⟩

/-- It is told of all of them if it refuses none. -/
theorem all_of_ok (h : Stopping feeds told) (hok : ∀ i ∈ told, i.answer = .ok ()) :
    told.map (·.feed) = feeds := by
  induction h with
  | done => rfl
  | granted feed _ ih =>
      rw [List.map_cons, ih fun i hi => hok i (List.mem_cons_of_mem _ hi)]
      rfl
  | refused feed feeds e =>
      have hrefused := hok _ List.mem_cons_self
      contradiction

end Stopping

namespace Switchboard

variable (S : Source σ ε)

/-! ## what each way of asking adds -/

/-- A request adds one inquiry, with its answer. -/
theorem inquiries_ask (q : Request) (f : Feed) (b : Switchboard σ ε) :
    inquiries (b.ask S q f).2.trace = inquiries b.trace ++ [⟨q, f, (b.ask S q f).1⟩] := by
  rw [ask_trace, inquiries_cons]
  rfl

/-- Stopping feeds adds one inquiry for each, up to the first that is refused. -/
theorem inquiries_stopAll (fs : List Feed) (b : Switchboard σ ε) :
    ∃ told, Stopping fs told ∧
      inquiries (b.stopAll S fs).2.trace = inquiries b.trace ++ told := by
  induction fs generalizing b with
  | nil => exact ⟨[], .done, (List.append_nil _).symm⟩
  | cons f fs ih =>
      have hask := inquiries_ask S .stop f b
      cases ha : (b.ask S .stop f).1 with
      | ok u =>
          rw [ha] at hask
          obtain ⟨told, htold, hothers⟩ := ih (b.ask S .stop f).2
          refine ⟨.ok .stop f :: told, .granted f htold, ?_⟩
          rw [stopAll_cons_of_ok S ha, hothers, hask, List.append_assoc]
          rfl
      | error e =>
          rw [ha] at hask
          rw [stopAll_cons_of_error S ha]
          exact ⟨_, .refused f fs e, hask⟩

/-- Each of the feeds is stopped once. -/
theorem inquiries_takeBack (fs : List Feed) (b : Switchboard σ ε) :
    ∃ told : List Inquiry, told.map (fun i => (i.request, i.feed)) = fs.map (Request.stop, ·) ∧
      inquiries (b.takeBack S fs).trace = inquiries b.trace ++ told := by
  induction fs generalizing b with
  | nil => exact ⟨[], rfl, (List.append_nil _).symm⟩
  | cons f fs ih =>
      obtain ⟨told, htold, hothers⟩ := ih (b.ask S .stop f).2
      refine ⟨⟨.stop, f, (b.ask S .stop f).1⟩ :: told, ?_, ?_⟩
      · rw [List.map_cons, List.map_cons, htold]
      · rw [takeBack_cons, hothers, inquiries_ask, List.append_assoc]
        rfl

/-- If no start is refused, each feed has been asked for once and in order. -/
theorem inquiries_startAll_of_ok {started fs : List Feed} {b : Switchboard σ ε}
    (h : (b.startAll S started fs).1 = .ok ()) :
    inquiries (b.startAll S started fs).2.trace =
      inquiries b.trace ++ fs.map (Inquiry.ok .start) := by
  induction fs generalizing started b with
  | nil => exact (List.append_nil _).symm
  | cons f fs ih =>
      cases ha : (b.ask S .start f).1 with
      | ok u =>
          rw [startAll_cons_of_ok S ha] at h ⊢
          rw [ih h, inquiries_ask, ha, List.append_assoc]
          rfl
      | error e =>
          rw [startAll_cons_of_error S ha] at h
          contradiction

/-- At a refusal, what was started before it is stopped again. -/
theorem inquiries_startAll_of_error {started fs : List Feed} {b : Switchboard σ ε} {e : Failure}
    (h : (b.startAll S started fs).1 = .error e) :
    ∃ begun f others, fs = begun ++ f :: others ∧
      ∃ told : List Inquiry,
        told.map (fun i => (i.request, i.feed)) = (started ++ begun).map (Request.stop, ·) ∧
        inquiries (b.startAll S started fs).2.trace =
          inquiries b.trace ++ begun.map (Inquiry.ok .start) ++ [⟨.start, f, .error e⟩] ++
            told := by
  induction fs generalizing started b with
  | nil => contradiction
  | cons f fs ih =>
      have hask := inquiries_ask S .start f b
      cases ha : (b.ask S .start f).1 with
      | ok u =>
          rw [startAll_cons_of_ok S ha] at h ⊢
          obtain ⟨begun, g, others, rfl, told, htold, hlog⟩ := ih h
          refine ⟨f :: begun, g, others, rfl, told, ?_, ?_⟩
          · rw [htold, List.append_assoc]
            rfl
          · rw [hlog, hask, ha]
            simp [Inquiry.ok]
      | error e' =>
          rw [startAll_cons_of_error S ha] at h ⊢
          cases h
          obtain ⟨told, htold, hlog⟩ := inquiries_takeBack S started (b.ask S .start f).2
          refine ⟨[], f, fs, rfl, told, ?_, ?_⟩
          · rw [htold, List.append_nil]
          · rw [hlog, hask, ha]
            simp

end Switchboard

end SlotWatch
