import Mathlib.Data.List.Basic
import Mathlib.Tactic

/-!
# Senders that write one message at a time

An outbox takes messages in at the back of its queue and writes the one in front. The
message being written stays in front until its write has finished; then it leaves the
queue. An outbox that writes has something to write, by construction.
-/

namespace BeastWebsocketEcho

structure Outbox (V : Type*) where
  finished : List V
  queue : List V
  busy : Bool
  front : busy = true → queue ≠ []

namespace Outbox

variable {V : Type*}

def submitted (o : Outbox V) : List V := o.finished ++ o.queue

def started (o : Outbox V) : List V := o.finished ++ if o.busy then o.queue.head?.toList else []

def empty : Outbox V := ⟨[],[],false,by simp⟩

def submit (o : Outbox V) (v : V) : Outbox V := ⟨o.finished,o.queue ++ [v],o.busy,by simp⟩

def start (o : Outbox V) (h : o.queue ≠ []) : Outbox V := ⟨o.finished,o.queue,true,fun _ => h⟩

def finish (o : Outbox V) : Outbox V := ⟨o.finished ++ o.queue.head?.toList,o.queue.tail,false,by simp⟩

theorem started_prefix (o : Outbox V) : o.started <+: o.submitted := by
  refine (List.prefix_append_right_inj o.finished).mpr ?_
  split
  · cases o.queue with
    | nil => simp
    | cons v vs => exact ⟨vs,rfl⟩
  · exact List.nil_prefix

@[simp] theorem submitted_submit (o : Outbox V) (v : V) : (o.submit v).submitted = o.submitted ++ [v] := by
  simp [submit,submitted]

/-- What is submitted goes behind what is being written. -/
@[simp] theorem started_submit (o : Outbox V) (v : V) : (o.submit v).started = o.started := by
  cases hb : o.busy with
  | false => simp [submit,started,hb]
  | true =>
    have hne := o.front hb
    simp [submit,started,hb,List.head?_append_of_ne_nil _ hne]

@[simp] theorem submitted_start (o : Outbox V) (h : o.queue ≠ []) : (o.start h).submitted = o.submitted := rfl

theorem started_start (o : Outbox V) (h : o.queue ≠ []) (hb : o.busy = false) :
    (o.start h).started = o.started ++ o.queue.head?.toList := by simp [start,started,hb]

@[simp] theorem submitted_finish (o : Outbox V) : o.finish.submitted = o.submitted := by
  cases hq : o.queue <;> simp [finish,submitted,hq]

theorem started_finish (o : Outbox V) (hb : o.busy = true) : o.finish.started = o.started := by
  simp [finish,started,hb]

end Outbox
end BeastWebsocketEcho
