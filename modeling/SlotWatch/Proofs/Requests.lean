import Mathlib.Data.List.Nodup
import SlotWatch.Switchboard.Basic

/-!
# SlotWatch.Proofs.Requests

What a source has been asked, and what it has granted.  The requests granted for
a feed are read off the trace, latest first; the feed is *active* if the latest of
them is a start.

Each way of asking the source comes with two laws: which requests it adds for the
feeds it is about, and that it adds none for any other feed.
-/

namespace SlotWatch

variable {σ ε : Type}

/-! ## requests on a trace -/

/-- What an event says the source has granted for a feed. -/
def Event.grant? (feed : Feed) : Event σ ε → Option Request
  | .asked request about (.ok ()) => if about = feed then some request else none
  | _ => none

/-- The requests granted for a feed, latest first. -/
def granted (feed : Feed) (trace : List (Event σ ε)) : List Request :=
  trace.filterMap (Event.grant? feed)

/-- Whether the latest request granted for a feed is a start. -/
def Active (trace : List (Event σ ε)) (feed : Feed) : Prop :=
  (granted feed trace).head? = some .start

/-- Whether an event is a refusal to stop. -/
def Event.refusesStop : Event σ ε → Bool
  | .asked .stop _ (.error _) => true
  | _ => false

/-- Whether the source has stopped whatever it was asked to stop. -/
def StopsGranted (trace : List (Event σ ε)) : Prop :=
  ∀ e ∈ trace, e.refusesStop = false

instance (trace : List (Event σ ε)) : Decidable (StopsGranted trace) :=
  inferInstanceAs (Decidable (∀ e ∈ trace, e.refusesStop = false))

theorem granted_cons (feed : Feed) (e : Event σ ε) (es : List (Event σ ε)) :
    granted feed (e :: es) = (e.grant? feed).toList ++ granted feed es := by
  unfold granted
  rw [List.filterMap_cons]
  cases e.grant? feed <;> rfl

theorem granted_cons_of_none {feed : Feed} {e : Event σ ε} (h : e.grant? feed = none)
    (es : List (Event σ ε)) : granted feed (e :: es) = granted feed es := by
  rw [granted_cons, h]
  rfl

/-- Whether a feed is active is told by the requests granted for it. -/
theorem active_iff_of_granted_eq {feed : Feed} {es fs : List (Event σ ε)}
    (h : granted feed es = granted feed fs) : Active es feed ↔ Active fs feed := by
  rw [Active, Active, h]

/-- A stop that has not been refused later was not refused before. -/
theorem StopsGranted.of_suffix {es fs : List (Event σ ε)} (h : StopsGranted fs)
    (hs : es <:+ fs) : StopsGranted es :=
  fun e he => h e (hs.subset he)

/-! ## the rest of a trace -/

/-- Whether an event is a request to the source. -/
def Event.isRequest : Event σ ε → Bool
  | .asked .. => true
  | _ => false

/-- What happened apart from requests to the source. -/
def story (trace : List (Event σ ε)) : List (Event σ ε) :=
  trace.filter (!·.isRequest)

/-- Requests are no part of the story. -/
theorem story_cons_of_isRequest {e : Event σ ε} (h : e.isRequest = true)
    (es : List (Event σ ε)) : story (e :: es) = story es :=
  List.filter_cons_of_neg (by simp [h])

/-- What is read off a trace but not from requests can be read off the story. -/
theorem filterMap_story {α : Type} {f : Event σ ε → Option α}
    (hf : ∀ e, e.isRequest = true → f e = none) (trace : List (Event σ ε)) :
    (story trace).filterMap f = trace.filterMap f := by
  rw [story, List.filterMap_filter]
  refine List.filterMap_congr fun e _ => ?_
  cases he : e.isRequest with
  | true => simp [hf e he]
  | false => simp

theorem story_cons {e : Event σ ε} (h : e.isRequest = false) (es : List (Event σ ε)) :
    story (e :: es) = e :: story es :=
  List.filter_cons_of_pos (by simp [h])

namespace Switchboard

variable (S : Source σ ε)

/-! ## one request -/

@[simp] theorem ask_registry (q : Request) (f : Feed) (b : Switchboard σ ε) :
    (b.ask S q f).2.registry = b.registry := rfl

@[simp] theorem ask_running (q : Request) (f : Feed) (b : Switchboard σ ε) :
    (b.ask S q f).2.running = b.running := rfl

theorem ask_trace (q : Request) (f : Feed) (b : Switchboard σ ε) :
    (b.ask S q f).2.trace = .asked q f (b.ask S q f).1 :: b.trace := rfl

@[simp] theorem story_ask (q : Request) (f : Feed) (b : Switchboard σ ε) :
    story (b.ask S q f).2.trace = story b.trace :=
  story_cons_of_isRequest rfl b.trace

/-- A request is put on the trace before what has happened. -/
theorem suffix_ask (q : Request) (f : Feed) (b : Switchboard σ ε) :
    b.trace <:+ (b.ask S q f).2.trace := by
  rw [ask_trace]
  exact List.suffix_cons _ _

/-- A request that is granted is the latest for its feed. -/
theorem granted_ask_of_ok {q : Request} {f : Feed} {b : Switchboard σ ε}
    (h : (b.ask S q f).1 = .ok ()) (feed : Feed) :
    granted feed (b.ask S q f).2.trace =
      (if feed = f then [q] else []) ++ granted feed b.trace := by
  rw [ask_trace, granted_cons, h]
  by_cases hf : feed = f
  · subst hf
    simp [Event.grant?]
  · simp [Event.grant?, hf, Ne.symm hf]

/-- A request that is refused grants nothing. -/
theorem granted_ask_of_error {q : Request} {f : Feed} {b : Switchboard σ ε} {e : Failure}
    (h : (b.ask S q f).1 = .error e) (feed : Feed) :
    granted feed (b.ask S q f).2.trace = granted feed b.trace := by
  rw [ask_trace, h]
  exact granted_cons_of_none rfl _

/-- A request grants nothing for other feeds. -/
theorem granted_ask_of_ne {q : Request} {f : Feed} (b : Switchboard σ ε) {feed : Feed}
    (hf : feed ≠ f) : granted feed (b.ask S q f).2.trace = granted feed b.trace := by
  cases h : (b.ask S q f).1 with
  | error e => exact granted_ask_of_error S h feed
  | ok u =>
      rw [granted_ask_of_ok S h feed, if_neg hf]
      rfl

/-- A request to stop is granted where all of them are. -/
theorem ask_stop_ok {f : Feed} {b : Switchboard σ ε}
    (h : StopsGranted (b.ask S .stop f).2.trace) : (b.ask S .stop f).1 = .ok () := by
  cases ha : (b.ask S .stop f).1 with
  | ok u => rfl
  | error e =>
      have hrefused := h _ (ask_trace S .stop f b ▸ List.mem_cons_self)
      rw [ha] at hrefused
      contradiction

/-! ## stopping -/

/-- After a stop that is granted the remaining feeds are stopped. -/
theorem stopAll_cons_of_ok {f : Feed} {b : Switchboard σ ε} (h : (b.ask S .stop f).1 = .ok ())
    (fs : List Feed) : b.stopAll S (f :: fs) = (b.ask S .stop f).2.stopAll S fs := by
  rw [stopAll]
  cases ha : b.ask S .stop f with
  | mk answer b' =>
      rw [ha] at h
      subst h
      rfl

/-- A stop that is refused is the last. -/
theorem stopAll_cons_of_error {f : Feed} {b : Switchboard σ ε} {e : Failure}
    (h : (b.ask S .stop f).1 = .error e) (fs : List Feed) :
    b.stopAll S (f :: fs) = (.error e, (b.ask S .stop f).2) := by
  rw [stopAll]
  cases ha : b.ask S .stop f with
  | mk answer b' =>
      rw [ha] at h
      subst h
      rfl

/-- Stopping feeds changes no registration. -/
@[simp] theorem stopAll_registry (fs : List Feed) (b : Switchboard σ ε) :
    (b.stopAll S fs).2.registry = b.registry := by
  induction fs generalizing b with
  | nil => rfl
  | cons f fs ih =>
      cases ha : (b.ask S .stop f).1 with
      | ok u => rw [stopAll_cons_of_ok S ha, ih, ask_registry]
      | error e => rw [stopAll_cons_of_error S ha, ask_registry]

@[simp] theorem stopAll_running (fs : List Feed) (b : Switchboard σ ε) :
    (b.stopAll S fs).2.running = b.running := by
  induction fs generalizing b with
  | nil => rfl
  | cons f fs ih =>
      cases ha : (b.ask S .stop f).1 with
      | ok u => rw [stopAll_cons_of_ok S ha, ih, ask_running]
      | error e => rw [stopAll_cons_of_error S ha, ask_running]

/-- Stopping feeds is nothing but requests. -/
@[simp] theorem story_stopAll (fs : List Feed) (b : Switchboard σ ε) :
    story (b.stopAll S fs).2.trace = story b.trace := by
  induction fs generalizing b with
  | nil => rfl
  | cons f fs ih =>
      cases ha : (b.ask S .stop f).1 with
      | ok u => rw [stopAll_cons_of_ok S ha, ih, story_ask]
      | error e => rw [stopAll_cons_of_error S ha, story_ask]

theorem suffix_stopAll (fs : List Feed) (b : Switchboard σ ε) :
    b.trace <:+ (b.stopAll S fs).2.trace := by
  induction fs generalizing b with
  | nil => exact List.suffix_refl _
  | cons f fs ih =>
      cases ha : (b.ask S .stop f).1 with
      | ok u =>
          rw [stopAll_cons_of_ok S ha]
          exact (suffix_ask S .stop f b).trans (ih _)
      | error e =>
          rw [stopAll_cons_of_error S ha]
          exact suffix_ask S .stop f b

/-- Stopping leaves every other feed alone. -/
theorem granted_stopAll_of_not_mem {feed : Feed} {fs : List Feed} (hf : feed ∉ fs)
    (b : Switchboard σ ε) : granted feed (b.stopAll S fs).2.trace = granted feed b.trace := by
  induction fs generalizing b with
  | nil => rfl
  | cons f fs ih =>
      rw [List.mem_cons, not_or] at hf
      cases ha : (b.ask S .stop f).1 with
      | ok u => rw [stopAll_cons_of_ok S ha, ih hf.2, granted_ask_of_ne S b hf.1]
      | error e => rw [stopAll_cons_of_error S ha, granted_ask_of_ne S b hf.1]

/-- Stopping succeeds if no stop is refused meanwhile. -/
theorem stopAll_ok {fs : List Feed} {b : Switchboard σ ε} {new : List (Event σ ε)}
    (htrace : new ++ b.trace = (b.stopAll S fs).2.trace) (hg : StopsGranted new) :
    (b.stopAll S fs).1 = .ok () := by
  induction fs generalizing b new with
  | nil => rfl
  | cons f fs ih =>
      cases ha : (b.ask S .stop f).1 with
      | ok u =>
          rw [stopAll_cons_of_ok S ha] at htrace ⊢
          obtain ⟨later, hlater⟩ := suffix_stopAll S fs (b.ask S .stop f).2
          have hnew := htrace.trans hlater.symm
          rw [ask_trace, List.append_cons] at hnew
          refine ih hlater fun e he => hg e ?_
          rw [List.append_cancel_right hnew]
          exact List.mem_append_left _ he
      | error e =>
          rw [stopAll_cons_of_error S ha, ask_trace, ← List.singleton_append] at htrace
          have hmem : .asked .stop f (b.ask S .stop f).1 ∈ new := by
            rw [List.append_cancel_right htrace]
            exact List.mem_singleton_self _
          have hrefused := hg _ hmem
          rw [ha] at hrefused
          contradiction

/-- If all is stopped, each of the feeds is. -/
theorem granted_stopAll_of_ok {fs : List Feed} (hfs : fs.Nodup) {b : Switchboard σ ε}
    (h : (b.stopAll S fs).1 = .ok ()) (feed : Feed) :
    granted feed (b.stopAll S fs).2.trace =
      (if feed ∈ fs then [.stop] else []) ++ granted feed b.trace := by
  induction fs generalizing b with
  | nil => rfl
  | cons f fs ih =>
      obtain ⟨hf, hfs⟩ := List.nodup_cons.mp hfs
      cases ha : (b.ask S .stop f).1 with
      | ok u =>
          rw [stopAll_cons_of_ok S ha] at h ⊢
          rw [ih hfs h, granted_ask_of_ok S ha]
          by_cases hfeed : feed = f
          · subst hfeed
            simp [hf]
          · simp [hfeed]
      | error e =>
          rw [stopAll_cons_of_error S ha] at h
          contradiction

/-- If the source stops whatever it is asked to, each of the feeds is stopped. -/
theorem granted_stopAll {fs : List Feed} (hfs : fs.Nodup) {b : Switchboard σ ε}
    (hg : StopsGranted (b.stopAll S fs).2.trace) (feed : Feed) :
    granted feed (b.stopAll S fs).2.trace =
      (if feed ∈ fs then [.stop] else []) ++ granted feed b.trace := by
  obtain ⟨new, htrace⟩ := suffix_stopAll S fs b
  have hnew : StopsGranted new := fun e he => hg e (htrace ▸ List.mem_append_left _ he)
  exact granted_stopAll_of_ok S hfs (stopAll_ok S htrace hnew) feed

/-! ## taking starts back -/

theorem takeBack_cons (f : Feed) (fs : List Feed) (b : Switchboard σ ε) :
    b.takeBack S (f :: fs) = (b.ask S .stop f).2.takeBack S fs := rfl

@[simp] theorem takeBack_registry (fs : List Feed) (b : Switchboard σ ε) :
    (b.takeBack S fs).registry = b.registry := by
  induction fs generalizing b with
  | nil => rfl
  | cons f fs ih => rw [takeBack_cons, ih, ask_registry]

@[simp] theorem takeBack_running (fs : List Feed) (b : Switchboard σ ε) :
    (b.takeBack S fs).running = b.running := by
  induction fs generalizing b with
  | nil => rfl
  | cons f fs ih => rw [takeBack_cons, ih, ask_running]

@[simp] theorem story_takeBack (fs : List Feed) (b : Switchboard σ ε) :
    story (b.takeBack S fs).trace = story b.trace := by
  induction fs generalizing b with
  | nil => rfl
  | cons f fs ih => rw [takeBack_cons, ih, story_ask]

theorem suffix_takeBack (fs : List Feed) (b : Switchboard σ ε) :
    b.trace <:+ (b.takeBack S fs).trace := by
  induction fs generalizing b with
  | nil => exact List.suffix_refl _
  | cons f fs ih =>
      rw [takeBack_cons]
      exact (suffix_ask S .stop f b).trans (ih _)

theorem granted_takeBack_of_not_mem {feed : Feed} {fs : List Feed} (hf : feed ∉ fs)
    (b : Switchboard σ ε) : granted feed (b.takeBack S fs).trace = granted feed b.trace := by
  induction fs generalizing b with
  | nil => rfl
  | cons f fs ih =>
      rw [List.mem_cons, not_or] at hf
      rw [takeBack_cons, ih hf.2, granted_ask_of_ne S b hf.1]

/-- If the source stops whatever it is asked to, each start taken back is followed by a stop. -/
theorem granted_takeBack {fs : List Feed} (hfs : fs.Nodup) {b : Switchboard σ ε}
    (hg : StopsGranted (b.takeBack S fs).trace) (feed : Feed) :
    granted feed (b.takeBack S fs).trace =
      (if feed ∈ fs then [.stop] else []) ++ granted feed b.trace := by
  induction fs generalizing b with
  | nil => rfl
  | cons f fs ih =>
      obtain ⟨hf, hfs⟩ := List.nodup_cons.mp hfs
      rw [takeBack_cons] at hg ⊢
      have ha := ask_stop_ok S (hg.of_suffix (suffix_takeBack S fs _))
      rw [ih hfs hg, granted_ask_of_ok S ha]
      by_cases hfeed : feed = f
      · subst hfeed
        simp [hf]
      · simp [hfeed]

/-! ## starting -/

/-- A start that is granted is one to be taken back if another is refused. -/
theorem startAll_cons_of_ok {f : Feed} {b : Switchboard σ ε}
    (h : (b.ask S .start f).1 = .ok ()) (started fs : List Feed) :
    b.startAll S started (f :: fs) =
      (b.ask S .start f).2.startAll S (started ++ [f]) fs := by
  rw [startAll]
  cases ha : b.ask S .start f with
  | mk answer b' =>
      rw [ha] at h
      subst h
      rfl

/-- A start that is refused is the last, and what was started is taken back. -/
theorem startAll_cons_of_error {f : Feed} {b : Switchboard σ ε} {e : Failure}
    (h : (b.ask S .start f).1 = .error e) (started fs : List Feed) :
    b.startAll S started (f :: fs) = (.error e, (b.ask S .start f).2.takeBack S started) := by
  rw [startAll]
  cases ha : b.ask S .start f with
  | mk answer b' =>
      rw [ha] at h
      subst h
      rfl

@[simp] theorem startAll_registry (started fs : List Feed) (b : Switchboard σ ε) :
    (b.startAll S started fs).2.registry = b.registry := by
  induction fs generalizing started b with
  | nil => rfl
  | cons f fs ih =>
      cases ha : (b.ask S .start f).1 with
      | ok u => rw [startAll_cons_of_ok S ha, ih, ask_registry]
      | error e => rw [startAll_cons_of_error S ha, takeBack_registry, ask_registry]

@[simp] theorem startAll_running (started fs : List Feed) (b : Switchboard σ ε) :
    (b.startAll S started fs).2.running = b.running := by
  induction fs generalizing started b with
  | nil => rfl
  | cons f fs ih =>
      cases ha : (b.ask S .start f).1 with
      | ok u => rw [startAll_cons_of_ok S ha, ih, ask_running]
      | error e => rw [startAll_cons_of_error S ha, takeBack_running, ask_running]

/-- Starting feeds is nothing but requests, also those that take starts back. -/
@[simp] theorem story_startAll (started fs : List Feed) (b : Switchboard σ ε) :
    story (b.startAll S started fs).2.trace = story b.trace := by
  induction fs generalizing started b with
  | nil => rfl
  | cons f fs ih =>
      cases ha : (b.ask S .start f).1 with
      | ok u => rw [startAll_cons_of_ok S ha, ih, story_ask]
      | error e => rw [startAll_cons_of_error S ha, story_takeBack, story_ask]

theorem suffix_startAll (started fs : List Feed) (b : Switchboard σ ε) :
    b.trace <:+ (b.startAll S started fs).2.trace := by
  induction fs generalizing started b with
  | nil => exact List.suffix_refl _
  | cons f fs ih =>
      cases ha : (b.ask S .start f).1 with
      | ok u =>
          rw [startAll_cons_of_ok S ha]
          exact (suffix_ask S .start f b).trans (ih _ _)
      | error e =>
          rw [startAll_cons_of_error S ha]
          exact (suffix_ask S .start f b).trans (suffix_takeBack S started _)

/-- Starting leaves every other feed alone. -/
theorem granted_startAll_of_not_mem {feed : Feed} {started fs : List Feed}
    (hs : feed ∉ started) (hf : feed ∉ fs) (b : Switchboard σ ε) :
    granted feed (b.startAll S started fs).2.trace = granted feed b.trace := by
  induction fs generalizing started b with
  | nil => rfl
  | cons f fs ih =>
      rw [List.mem_cons, not_or] at hf
      cases ha : (b.ask S .start f).1 with
      | ok u =>
          have hs' : feed ∉ started ++ [f] := by simp [hs, hf.1]
          rw [startAll_cons_of_ok S ha, ih hs' hf.2, granted_ask_of_ne S b hf.1]
      | error e =>
          rw [startAll_cons_of_error S ha, granted_takeBack_of_not_mem S hs,
            granted_ask_of_ne S b hf.1]

/-- If all is started, each of the feeds is. -/
theorem granted_startAll_of_ok {started fs : List Feed} (hfs : fs.Nodup) {b : Switchboard σ ε}
    (h : (b.startAll S started fs).1 = .ok ()) (feed : Feed) :
    granted feed (b.startAll S started fs).2.trace =
      (if feed ∈ fs then [.start] else []) ++ granted feed b.trace := by
  induction fs generalizing started b with
  | nil => rfl
  | cons f fs ih =>
      obtain ⟨hf, hfs⟩ := List.nodup_cons.mp hfs
      cases ha : (b.ask S .start f).1 with
      | ok u =>
          rw [startAll_cons_of_ok S ha] at h ⊢
          rw [ih hfs h, granted_ask_of_ok S ha]
          by_cases hfeed : feed = f
          · subst hfeed
            simp [hf]
          · simp [hfeed]
      | error e =>
          rw [startAll_cons_of_error S ha] at h
          contradiction

/-- If a start is refused and the source stops whatever it is asked to, what was
started before is stopped again. -/
theorem granted_startAll_of_error {started fs : List Feed} (hfs : (started ++ fs).Nodup)
    {b : Switchboard σ ε} {e : Failure} (h : (b.startAll S started fs).1 = .error e)
    (hg : StopsGranted (b.startAll S started fs).2.trace) (feed : Feed) :
    if feed ∈ started then
      granted feed (b.startAll S started fs).2.trace = .stop :: granted feed b.trace
    else
      granted feed (b.startAll S started fs).2.trace = granted feed b.trace ∨
        (feed ∈ fs ∧ granted feed (b.startAll S started fs).2.trace =
          .stop :: .start :: granted feed b.trace) := by
  induction fs generalizing started b with
  | nil => contradiction
  | cons f fs ih =>
      have hf : f ∉ started := fun hm =>
        (List.nodup_append.mp hfs).2.2 f hm f List.mem_cons_self rfl
      cases ha : (b.ask S .start f).1 with
      | ok u =>
          rw [startAll_cons_of_ok S ha] at h hg ⊢
          have hstep := ih (by simpa using hfs) h hg
          rw [granted_ask_of_ok S ha] at hstep
          by_cases hfeed : feed = f
          · subst hfeed
            rw [if_neg hf]
            exact .inr ⟨List.mem_cons_self, by simpa using hstep⟩
          · simpa [hfeed] using hstep
      | error e' =>
          rw [startAll_cons_of_error S ha] at hg ⊢
          have hstep := granted_takeBack S (List.nodup_append.mp hfs).1 hg feed
          rw [granted_ask_of_error S ha] at hstep
          by_cases hs : feed ∈ started
          · simpa [hs] using hstep
          · rw [if_neg hs]
            exact .inl (by simpa [hs] using hstep)

end Switchboard

end SlotWatch
