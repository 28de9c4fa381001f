import Mathlib.Data.List.Infix

/-! # A queue that loses and repeats

Frames go through a queue that may lose any of them and may hand one over a second time right behind the first. The
receiver looks at the frames in the order they arrive and takes some of them. If it never expects a frame that it
has just taken, then what it takes is a subsequence of what was sent, whatever is lost or repeated.
-/

namespace Machine.LossyQueue

variable {F R : Type}

/-- The frames on the right are those on the left, some of them twice in a row. -/
inductive Stutters : List F → List F → Prop
  | nil : Stutters [] []
  | once {frame : F} {frames copies : List F} : Stutters frames copies → Stutters (frame :: frames) (frame :: copies)
  | twice {frame : F} {frames copies : List F} :
      Stutters frames copies → Stutters (frame :: frames) (frame :: frame :: copies)

theorem Stutters.append {frames copies frames' copies' : List F} (first : Stutters frames copies)
    (second : Stutters frames' copies') : Stutters (frames ++ frames') (copies ++ copies') := by
  induction first with
  | nil => exact second
  | once _ ih => exact .once ih
  | twice _ ih => exact .twice ih

/-- Frames that were sent, taken, are in the queue or have arrived at a receiver. Of those that arrived the first may
be copies that the receiver does not expect; the others, with the queue, continue what was taken. -/
def InTransit (expects : R → F → Prop) (state : R) (sent taken queue arrived : List F) : Prop :=
  ∃ stale copies fresh, arrived = stale ++ copies ∧ (∀ frame ∈ stale, ¬expects state frame) ∧
    Stutters fresh copies ∧ List.Sublist (taken ++ (fresh ++ queue)) sent

namespace InTransit

variable {expects : R → F → Prop} {state : R} {sent taken queue arrived : List F} {frame : F}

theorem start : InTransit expects state [] [] [] [] :=
  ⟨[], [], [], rfl, by simp, .nil, by simp⟩

/-- What was taken is a subsequence of what was sent. -/
theorem sublist (transit : InTransit expects state sent taken queue arrived) : List.Sublist taken sent := by
  obtain ⟨_, _, fresh, -, -, -, order⟩ := transit
  exact (List.sublist_append_left taken _).trans order

theorem put (frame : F) (transit : InTransit expects state sent taken queue arrived) :
    InTransit expects state (sent ++ [frame]) taken (queue ++ [frame]) arrived := by
  obtain ⟨stale, copies, fresh, rfl, unexpected, stutters, order⟩ := transit
  refine ⟨stale, copies, fresh, rfl, unexpected, stutters, ?_⟩
  simpa [List.append_assoc] using order.append (List.Sublist.refl [frame])

theorem lose (transit : InTransit expects state sent taken (frame :: queue) arrived) :
    InTransit expects state sent taken queue arrived := by
  obtain ⟨stale, copies, fresh, rfl, unexpected, stutters, order⟩ := transit
  refine ⟨stale, copies, fresh, rfl, unexpected, stutters, .trans ?_ order⟩
  apply List.Sublist.append_left
  apply List.Sublist.append_left
  exact List.sublist_cons_self frame queue

theorem arriving {arriving : List F} (transit : InTransit expects state sent taken (frame :: queue) arrived)
    (copied : Stutters [frame] arriving) : InTransit expects state sent taken queue (arrived ++ arriving) := by
  obtain ⟨stale, copies, fresh, rfl, unexpected, stutters, order⟩ := transit
  refine ⟨stale, copies ++ arriving, fresh ++ [frame], by simp, unexpected, stutters.append copied, ?_⟩
  simpa [List.append_assoc] using order

theorem arrive (transit : InTransit expects state sent taken (frame :: queue) arrived) :
    InTransit expects state sent taken queue (arrived ++ [frame]) :=
  transit.arriving (.once .nil)

theorem refuse (transit : InTransit expects state sent taken queue (frame :: arrived)) :
    InTransit expects state sent taken queue arrived := by
  obtain ⟨stale, copies, fresh, split, unexpected, stutters, order⟩ := transit
  cases stale with
  | cons head stale =>
    obtain ⟨rfl, rfl⟩ : frame = head ∧ arrived = stale ++ copies := by simpa using split
    exact ⟨stale, copies, fresh, rfl, fun other member => unexpected other (List.mem_cons_of_mem _ member), stutters,
      order⟩
  | nil =>
    obtain rfl : frame :: arrived = copies := split
    cases stutters with
    | @once _ fresh _ stutters =>
      refine ⟨[], arrived, fresh, rfl, by simp, stutters, .trans ?_ order⟩
      apply List.Sublist.append_left
      apply List.Sublist.append_right
      exact List.sublist_cons_self frame fresh
    | twice stutters => exact ⟨[], _, _, rfl, by simp, .once stutters, order⟩

/-- The receiver takes the frame it expects, and expects another one. -/
theorem take {state' : R} (transit : InTransit expects state sent taken queue (frame :: arrived))
    (expected : expects state frame) (next : ¬expects state' frame) :
    InTransit expects state' sent (taken ++ [frame]) queue arrived := by
  obtain ⟨stale, copies, fresh, split, unexpected, stutters, order⟩ := transit
  cases stale with
  | cons head stale =>
    obtain ⟨rfl, -⟩ : frame = head ∧ arrived = stale ++ copies := by simpa using split
    exact absurd expected (unexpected frame List.mem_cons_self)
  | nil =>
    obtain rfl : frame :: arrived = copies := split
    cases stutters with
    | once stutters => exact ⟨[], _, _, rfl, by simp, stutters, by simpa using order⟩
    | twice stutters => exact ⟨[frame], _, _, rfl, by simpa using next, stutters, by simpa using order⟩

end InTransit

end Machine.LossyQueue
