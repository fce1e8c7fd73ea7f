import GraphifyDaemon.Library.Framing
import GraphifyDaemon.Library.Trace
import GraphifyDaemon.VaultCompiler.Clustering

/-! `run_clustering_subprocess` and its child, with two pipes between them: one for the pickled
argument and one for the result queue. The parent holds both ends of either while it uses it,
so a child that dies neither ends the stream of its message nor makes the write of its
argument fail. -/
namespace GraphifyDaemon
open Library Library.Trace

variable {β : Type}

/-- What `_cluster_worker` puts into the queue. -/
inductive WorkerMessage where
  | ok (communities : CommunityMap)
  | error (text : String)

/-- How far the parent is: in `process.start()`, writing the argument; in `get`, before the first
bytes and after them; in `join(timeout=5.0)` with the message; in the `join` after `terminate`,
which may follow either; or done. -/
inductive HandoffStage where
  | starting
  | polling
  | receiving
  | joining (message : WorkerMessage)
  | terminating (message : Option WorkerMessage)
  | returned (outcome : ClusteringOutcome)

/-- The parent is in `start` or in `get`: it has not received the message yet. -/
def HandoffStage.awaits : HandoffStage → Prop
  | .starting | .polling | .receiving => True
  | .joining _ | .terminating _ | .returned _ => False

/-- The bytes of the argument are not written yet, in its pipe, or read; those of the child's
message are received, in the pipe, or not written yet. -/
structure Handoff (β : Type) where
  parent : HandoffStage
  alive : Bool
  unhanded : Nat
  handed : Nat
  message : Option WorkerMessage
  received : List β
  pipe : List β
  unsent : List β

inductive HandoffEvent where
  /-- The parent writes of the argument. -/
  | hand (count : Nat)
  /-- The child reads of its argument. -/
  | take (count : Nat)
  /-- `process.start()` returns. -/
  | started
  /-- The child's worker puts its result. -/
  | put (message : WorkerMessage)
  | write (count : Nat)
  /-- The child exits, its queue being flushed. -/
  | exit
  /-- The child dies, of whatever. -/
  | die
  | poll
  | pollTimeout
  | read (count : Nat)
  | join
  | joinTimeout
  /-- What `terminate` was sent for happens. -/
  | killed
  | reap

/-- What the parent makes of the message it has. -/
def outcomeOf : Option WorkerMessage → ClusteringOutcome
  | none => .timedOut
  | some (.ok communities) => .communities communities
  | some (.error _) => .failed

namespace Handoff

/-- The child is spawned, and `process.start()` has its argument still to write. -/
def start (argument : Nat) : Handoff β := ⟨.starting, true, argument, 0, none, [], [], []⟩

variable (F : Framing WorkerMessage β) (capacity : Nat)

/-- A write takes as many bytes as there is room for, and a read as many as there are. -/
def step : HandoffEvent → Handoff β → Option (Handoff β)
  | .hand count, s => match s.parent with
    | .starting =>
      if 0 < count ∧ count ≤ s.unhanded ∧ s.handed + count ≤ capacity then
        some { s with unhanded := s.unhanded - count, handed := s.handed + count }
      else none
    | _ => none
  | .take count, s =>
    if s.alive = true ∧ 0 < count ∧ count ≤ s.handed then some { s with handed := s.handed - count } else none
  | .started, s => match s.parent with
    | .starting => if s.unhanded = 0 then some { s with parent := .polling } else none
    | _ => none
  | .put message, s =>
    -- the worker runs once the child has the whole of its argument
    if s.alive = true ∧ s.unhanded + s.handed = 0 ∧ s.message.isNone = true then
      some { s with message := some message, unsent := F.encode message }
    else none
  | .write count, s =>
    if s.alive = true ∧ 0 < count ∧ count ≤ s.unsent.length ∧ s.pipe.length + count ≤ capacity then
      some { s with pipe := s.pipe ++ s.unsent.take count, unsent := s.unsent.drop count }
    else none
  | .exit, s =>
    if s.alive = true ∧ s.message.isSome = true ∧ s.unsent.isEmpty = true then some { s with alive := false }
    else none
  | .die, s => if s.alive = true then some { s with alive := false } else none
  | .poll, s => match s.parent, s.pipe with
    | .polling, _ :: _ => some { s with parent := .receiving }
    | _, _ => none
  | .pollTimeout, s => match s.parent, s.pipe with
    | .polling, [] => some { s with parent := .terminating none }
    | _, _ => none
  | .read count, s => match s.parent with
    | .receiving =>
      if 0 < count ∧ count ≤ s.pipe.length then
        let received := s.received ++ s.pipe.take count
        some { s with
          parent := match F.decode received with
            | some message => .joining message
            | none => .receiving
          received := received
          pipe := s.pipe.drop count }
      else none
    | _ => none
  | .join, s => match s.parent with
    | .joining message => if s.alive = true then none else some { s with parent := .returned (outcomeOf (some message)) }
    | _ => none
  | .joinTimeout, s => match s.parent with
    | .joining message => if s.alive = true then some { s with parent := .terminating (some message) } else none
    | _ => none
  | .killed, s => match s.parent with
    | .terminating _ => if s.alive = true then some { s with alive := false } else none
    | _ => none
  | .reap, s => match s.parent with
    | .terminating message => if s.alive = true then none else some { s with parent := .returned (outcomeOf message) }
    | _ => none

/-- Neither parent nor child can go on; that the child might still die does not count. -/
def Stuck (s : Handoff β) : Prop := ∀ e, e ≠ .die → step F capacity e s = none

end Handoff

/-- The child has written all of its message or nothing. -/
def Handoff.WholeMessage (s : Handoff β) : Prop := s.received ++ s.pipe = [] ∨ s.unsent = []

/-- The child does not die between the first and the last byte of its message while the parent is
in `start` or in `get`, nor with more of its argument unread than the pipe holds while the parent
still writes it. -/
def NoDeathMidTransfer (capacity : Nat) : HandoffEvent → Handoff β → Prop
  | .die, s => (s.parent.awaits → s.WholeMessage) ∧ (s.parent = .starting → s.unhanded + s.handed ≤ capacity)
  | _, _ => True

/-- What the parent has received when it has this for an answer. -/
def bytesOf (F : Framing WorkerMessage β) : Option WorkerMessage → List β
  | none => []
  | some message => F.encode message

/-- The bytes of the message are where they should be, and the parent is where it should be with
those it has. -/
structure Delivered (F : Framing WorkerMessage β) (capacity : Nat) (s : Handoff β) : Prop where
  nothing : s.message = none → s.received = [] ∧ s.pipe = [] ∧ s.unsent = []
  bytes : ∀ m, s.message = some m → s.received ++ s.pipe ++ s.unsent = F.encode m
  room : s.pipe.length ≤ capacity
  handed : s.handed ≤ capacity
  argument : ∀ m, s.message = some m → s.unhanded + s.handed = 0
  starting : s.parent = .starting → s.received = []
  polling : s.parent = .polling → s.received = []
  receiving : s.parent = .receiving → F.decode s.received = none ∧ s.received ++ s.pipe ≠ []
  joining : ∀ m, s.parent = .joining m → s.received = F.encode m
  terminating : ∀ answer, s.parent = .terminating answer → s.received = bytesOf F answer
  returned : ∀ outcome, s.parent = .returned outcome →
    s.alive = false ∧ ∃ answer, outcome = outcomeOf answer ∧ s.received = bytesOf F answer

variable {F : Framing WorkerMessage β} {capacity : Nat} {s s' : Handoff β}

namespace Handoff

private theorem step_hand {count : Nat} : step F capacity (.hand count) s = some s' ↔
    s.parent = .starting ∧ (0 < count ∧ count ≤ s.unhanded ∧ s.handed + count ≤ capacity) ∧
      s' = { s with unhanded := s.unhanded - count, handed := s.handed + count } := by
  cases h : s.parent <;> simp [step, h, and_assoc, @eq_comm _ s']

private theorem step_take {count : Nat} : step F capacity (.take count) s = some s' ↔
    s.alive = true ∧ (0 < count ∧ count ≤ s.handed) ∧ s' = { s with handed := s.handed - count } := by
  simp [step, and_assoc, @eq_comm _ s']

private theorem step_started : step F capacity .started s = some s' ↔
    s.parent = .starting ∧ s.unhanded = 0 ∧ s' = { s with parent := .polling } := by
  cases h : s.parent <;> simp [step, h, @eq_comm _ s']

private theorem step_put {message : WorkerMessage} : step F capacity (.put message) s = some s' ↔
    s.alive = true ∧ s.unhanded + s.handed = 0 ∧ s.message = none ∧
      s' = { s with message := some message, unsent := F.encode message } := by
  simp [step, and_assoc, @eq_comm _ s']

private theorem step_write {count : Nat} : step F capacity (.write count) s = some s' ↔
    s.alive = true ∧ (0 < count ∧ count ≤ s.unsent.length ∧ s.pipe.length + count ≤ capacity) ∧
      s' = { s with pipe := s.pipe ++ s.unsent.take count, unsent := s.unsent.drop count } := by
  simp [step, and_assoc, @eq_comm _ s']

private theorem step_exit : step F capacity .exit s = some s' ↔
    s.alive = true ∧ s.unsent = [] ∧ s.message.isSome = true ∧ s' = { s with alive := false } := by
  simp [step, and_assoc, and_left_comm, @eq_comm _ s']

private theorem step_die : step F capacity .die s = some s' ↔ s.alive = true ∧ s' = { s with alive := false } := by
  simp [step, @eq_comm _ s']

private theorem step_killed : step F capacity .killed s = some s' ↔
    ∃ answer, s.parent = .terminating answer ∧ s.alive = true ∧ s' = { s with alive := false } := by
  cases h : s.parent <;> simp [step, h, @eq_comm _ s']

private theorem step_poll : step F capacity .poll s = some s' ↔
    s.parent = .polling ∧ s.pipe ≠ [] ∧ s' = { s with parent := .receiving } := by
  cases h : s.parent <;> cases hpipe : s.pipe <;> simp [step, h, hpipe, @eq_comm _ s']

private theorem step_pollTimeout : step F capacity .pollTimeout s = some s' ↔
    s.parent = .polling ∧ s.pipe = [] ∧ s' = { s with parent := .terminating none } := by
  cases h : s.parent <;> cases hpipe : s.pipe <;> simp [step, h, hpipe, @eq_comm _ s']

/-- The parent that reads has the message, or goes on. -/
theorem step_read {count : Nat} : step F capacity (.read count) s = some s' ↔
    s.parent = .receiving ∧ (0 < count ∧ count ≤ s.pipe.length) ∧ ∃ parent,
      (F.decode (s.received ++ s.pipe.take count) = none ∧ parent = .receiving ∨
        ∃ m, F.decode (s.received ++ s.pipe.take count) = some m ∧ parent = .joining m) ∧
      s' = { s with parent := parent, received := s.received ++ s.pipe.take count, pipe := s.pipe.drop count } := by
  cases h : s.parent <;> cases hdecode : F.decode (s.received ++ s.pipe.take count) <;>
    simp [step, h, hdecode, and_assoc, @eq_comm _ s']

private theorem step_join : step F capacity .join s = some s' ↔
    ∃ m, s.parent = .joining m ∧ s.alive = false ∧ s' = { s with parent := .returned (outcomeOf (some m)) } := by
  cases h : s.parent <;> simp [step, h, @eq_comm _ s']

private theorem step_joinTimeout : step F capacity .joinTimeout s = some s' ↔
    ∃ m, s.parent = .joining m ∧ s.alive = true ∧ s' = { s with parent := .terminating (some m) } := by
  cases h : s.parent <;> simp [step, h, @eq_comm _ s']

private theorem step_reap : step F capacity .reap s = some s' ↔ ∃ answer, s.parent = .terminating answer ∧
    s.alive = false ∧ s' = { s with parent := .returned (outcomeOf answer) } := by
  cases h : s.parent <;> simp [step, h, @eq_comm _ s']

end Handoff

private theorem delivered_start (argument : Nat) : Delivered F capacity (Handoff.start argument) where
  nothing _ := ⟨rfl, rfl, rfl⟩
  bytes _ h := nomatch h
  room := Nat.zero_le _
  handed := Nat.zero_le _
  argument _ h := nomatch h
  starting _ := rfl
  polling h := nomatch h
  receiving h := nomatch h
  joining _ h := nomatch h
  terminating _ h := nomatch h
  returned _ h := nomatch h

/-- There are bytes only of a message. -/
theorem Delivered.message_of_pipe (hs : Delivered F capacity s) (h : s.pipe ≠ []) :
    ∃ m, s.message = some m ∧ s.received ++ s.pipe ++ s.unsent = F.encode m := by
  cases hm : s.message with
  | none => exact absurd (hs.nothing hm).2.1 h
  | some m => exact ⟨m, rfl, hs.bytes m hm⟩

theorem Delivered.handOver (hs : Delivered F capacity s) {unhanded handed : Nat} (hhanded : handed ≤ capacity)
    (hargument : 0 < s.unhanded + s.handed) : Delivered F capacity { s with unhanded := unhanded, handed := handed } :=
  { hs with
    handed := hhanded
    argument := fun m hm => by have := hs.argument m hm; omega }

theorem Delivered.started (hs : Delivered F capacity s) (hparent : s.parent = .starting) :
    Delivered F capacity { s with parent := .polling } :=
  { hs with
    starting := fun h => nomatch h
    polling := fun _ => hs.starting hparent
    receiving := fun h => nomatch h
    joining := fun _ h => nomatch h
    terminating := fun _ h => nomatch h
    returned := fun _ h => nomatch h }

theorem Delivered.put (hs : Delivered F capacity s) (hargument : s.unhanded + s.handed = 0) (hnone : s.message = none)
    (message : WorkerMessage) :
    Delivered F capacity { s with message := some message, unsent := F.encode message } := by
  obtain ⟨hreceived, hpipe, -⟩ := hs.nothing hnone
  exact { hs with
    nothing := fun h => nomatch h
    bytes := fun m h => by cases h; simp [hreceived, hpipe]
    argument := fun _ _ => hargument }

theorem Delivered.write (hs : Delivered F capacity s) {count : Nat}
    (hcount : 0 < count ∧ count ≤ s.unsent.length ∧ s.pipe.length + count ≤ capacity) :
    Delivered F capacity { s with pipe := s.pipe ++ s.unsent.take count, unsent := s.unsent.drop count } :=
  { hs with
    nothing := fun h => by simp [hs.nothing h]
    bytes := fun m h => by simpa using hs.bytes m h
    room := by simp only [List.length_append, List.length_take]; omega
    receiving := fun h => by
      obtain ⟨hdecode, hbytes⟩ := hs.receiving h
      exact ⟨hdecode, fun hnil => hbytes (by simp_all)⟩ }

/-- However the child ends. -/
theorem Delivered.dead (hs : Delivered F capacity s) : Delivered F capacity { s with alive := false } :=
  { hs with returned := fun outcome h => ⟨rfl, (hs.returned outcome h).2⟩ }

theorem Delivered.poll (hs : Delivered F capacity s) (hparent : s.parent = .polling) (hpipe : s.pipe ≠ []) :
    Delivered F capacity { s with parent := .receiving } := by
  obtain ⟨m, hm, -⟩ := hs.message_of_pipe hpipe
  have hdecode : F.decode s.received = none := by
    rw [hs.polling hparent]
    exact F.partial_eq_none m [] List.nil_prefix (F.nonempty m).symm
  exact { hs with
    starting := fun h => nomatch h
    polling := fun h => nomatch h
    receiving := fun _ => ⟨hdecode, List.append_ne_nil_of_right_ne_nil _ hpipe⟩
    joining := fun _ h => nomatch h
    terminating := fun _ h => nomatch h
    returned := fun _ h => nomatch h }

theorem Delivered.read (hs : Delivered F capacity s) {count : Nat} {parent : HandoffStage}
    (hparent : s.parent = .receiving) (hcount : 0 < count ∧ count ≤ s.pipe.length)
    (hread : F.decode (s.received ++ s.pipe.take count) = none ∧ parent = .receiving ∨
      ∃ m, F.decode (s.received ++ s.pipe.take count) = some m ∧ parent = .joining m) :
    Delivered F capacity
      { s with parent := parent, received := s.received ++ s.pipe.take count, pipe := s.pipe.drop count } := by
  obtain ⟨-, hbytes⟩ := hs.receiving hparent
  obtain ⟨m, hm, hall⟩ := hs.message_of_pipe (List.ne_nil_of_length_pos (by omega))
  have hroom := hs.room
  have hmoved : s.received ++ s.pipe.take count ++ s.pipe.drop count = s.received ++ s.pipe := by simp
  -- what has been read is a part of the child's message
  have hprefix : s.received ++ s.pipe.take count <+: F.encode m :=
    ⟨s.pipe.drop count ++ s.unsent, by rw [← hall, ← List.append_assoc, hmoved]⟩
  have hjoining : ∀ m', parent = .joining m' → s.received ++ s.pipe.take count = F.encode m' := by
    rintro m' rfl
    obtain ⟨hdecode, hencode⟩ | ⟨hdecode, -⟩ := F.decode_of_prefix hprefix <;> simp [hdecode] at hread
    exact hread ▸ hencode
  have hreceiving : parent = .receiving → F.decode (s.received ++ s.pipe.take count) = none := by
    rintro rfl
    simpa using hread
  have hneither : (∀ answer, parent ≠ .terminating answer) ∧ ∀ outcome, parent ≠ .returned outcome := by
    obtain ⟨-, rfl⟩ | ⟨m', -, rfl⟩ := hread <;> simp
  exact {
    nothing := fun h => by simp [hm] at h
    bytes := fun m' h => by simpa using hs.bytes m' h
    room := by simp only [List.length_drop]; omega
    handed := hs.handed
    argument := hs.argument
    starting := fun h => by simp_all
    polling := fun h => by simp_all
    receiving := fun h => ⟨hreceiving h, hmoved ▸ hbytes⟩
    joining := hjoining
    terminating := fun answer h => absurd h (hneither.1 answer)
    returned := fun outcome h => absurd h (hneither.2 outcome) }

theorem Delivered.terminate (hs : Delivered F capacity s) {answer : Option WorkerMessage}
    (hanswer : s.received = bytesOf F answer) : Delivered F capacity { s with parent := .terminating answer } :=
  { hs with
    starting := fun h => nomatch h
    polling := fun h => nomatch h
    receiving := fun h => nomatch h
    joining := fun _ h => nomatch h
    terminating := fun _ h => by cases h; exact hanswer
    returned := fun _ h => nomatch h }

theorem Delivered.return (hs : Delivered F capacity s) {answer : Option WorkerMessage}
    (hdead : s.alive = false) (hanswer : s.received = bytesOf F answer) :
    Delivered F capacity { s with parent := .returned (outcomeOf answer) } :=
  { hs with
    starting := fun h => nomatch h
    polling := fun h => nomatch h
    receiving := fun h => nomatch h
    joining := fun _ h => nomatch h
    terminating := fun _ h => nomatch h
    returned := fun _ h => by cases h; exact ⟨hdead, answer, rfl, hanswer⟩ }

private theorem delivered_step (e : HandoffEvent) (s s' : Handoff β) (hs : Delivered F capacity s)
    (h : Handoff.step F capacity e s = some s') : Delivered F capacity s' := by
  cases e with
  | hand count =>
    obtain ⟨-, ⟨hpos, hcount, hroom⟩, rfl⟩ := Handoff.step_hand.mp h
    exact hs.handOver hroom (by omega)
  | take count =>
    obtain ⟨-, ⟨hpos, hcount⟩, rfl⟩ := Handoff.step_take.mp h
    exact hs.handOver ((Nat.sub_le _ _).trans hs.handed) (by omega)
  | started =>
    obtain ⟨hparent, -, rfl⟩ := Handoff.step_started.mp h
    exact hs.started hparent
  | put message =>
    obtain ⟨-, hargument, hnone, rfl⟩ := Handoff.step_put.mp h
    exact hs.put hargument hnone message
  | write count =>
    obtain ⟨-, hcount, rfl⟩ := Handoff.step_write.mp h
    exact hs.write hcount
  | exit =>
    obtain ⟨-, -, -, rfl⟩ := Handoff.step_exit.mp h
    exact hs.dead
  | die =>
    obtain ⟨-, rfl⟩ := Handoff.step_die.mp h
    exact hs.dead
  | poll =>
    obtain ⟨hparent, hpipe, rfl⟩ := Handoff.step_poll.mp h
    exact hs.poll hparent hpipe
  | pollTimeout =>
    obtain ⟨hparent, -, rfl⟩ := Handoff.step_pollTimeout.mp h
    exact hs.terminate (hs.polling hparent)
  | read count =>
    obtain ⟨hparent, hcount, parent, hread, rfl⟩ := Handoff.step_read.mp h
    exact hs.read hparent hcount hread
  | join =>
    obtain ⟨m, hparent, hdead, rfl⟩ := Handoff.step_join.mp h
    exact hs.return hdead (hs.joining m hparent)
  | joinTimeout =>
    obtain ⟨m, hparent, -, rfl⟩ := Handoff.step_joinTimeout.mp h
    exact hs.terminate (hs.joining m hparent)
  | killed =>
    obtain ⟨-, -, -, rfl⟩ := Handoff.step_killed.mp h
    exact hs.dead
  | reap =>
    obtain ⟨answer, hparent, hdead, rfl⟩ := Handoff.step_reap.mp h
    exact hs.return hdead (hs.terminating answer hparent)

/-- Without its child the parent goes on with the bytes there are. -/
structure LeftAlone (s s' : Handoff β) : Prop where
  dead : s'.alive = false
  unsent : s'.unsent = s.unsent
  written : s'.received ++ s'.pipe = s.received ++ s.pipe
  argument : s'.unhanded + s'.handed = s.unhanded + s.handed
  awaits : s'.parent.awaits → s.parent.awaits
  starting : s'.parent = .starting → s.parent = .starting

private theorem step_of_dead {e : HandoffEvent} (hdead : s.alive = false) (h : Handoff.step F capacity e s = some s') :
    LeftAlone s s' := by
  cases e with
  | take count =>
    obtain ⟨halive, -⟩ := Handoff.step_take.mp h
    simp [hdead] at halive
  | put message =>
    obtain ⟨halive, -⟩ := Handoff.step_put.mp h
    simp [hdead] at halive
  | write count =>
    obtain ⟨halive, -⟩ := Handoff.step_write.mp h
    simp [hdead] at halive
  | exit =>
    obtain ⟨halive, -⟩ := Handoff.step_exit.mp h
    simp [hdead] at halive
  | die =>
    obtain ⟨halive, -⟩ := Handoff.step_die.mp h
    simp [hdead] at halive
  | killed =>
    obtain ⟨-, -, halive, -⟩ := Handoff.step_killed.mp h
    simp [hdead] at halive
  | joinTimeout =>
    obtain ⟨-, -, halive, -⟩ := Handoff.step_joinTimeout.mp h
    simp [hdead] at halive
  | hand count =>
    obtain ⟨hparent, ⟨-, hcount, -⟩, rfl⟩ := Handoff.step_hand.mp h
    exact ⟨hdead, rfl, rfl, by dsimp only; omega, id, id⟩
  | started =>
    obtain ⟨hparent, -, rfl⟩ := Handoff.step_started.mp h
    exact ⟨hdead, rfl, rfl, rfl, fun _ => by simp [hparent, HandoffStage.awaits], fun _ => hparent⟩
  | poll =>
    obtain ⟨hparent, -, rfl⟩ := Handoff.step_poll.mp h
    exact ⟨hdead, rfl, rfl, rfl, fun _ => by simp [hparent, HandoffStage.awaits], fun h => nomatch h⟩
  | pollTimeout =>
    obtain ⟨-, -, rfl⟩ := Handoff.step_pollTimeout.mp h
    exact ⟨hdead, rfl, rfl, rfl, False.elim, fun h => nomatch h⟩
  | read count =>
    obtain ⟨hparent, -, parent, hread, rfl⟩ := Handoff.step_read.mp h
    refine ⟨hdead, rfl, by simp, rfl, fun _ => by simp [hparent, HandoffStage.awaits], ?_⟩
    obtain ⟨-, rfl⟩ | ⟨m, -, rfl⟩ := hread <;> exact fun h => nomatch h
  | join =>
    obtain ⟨m, -, -, rfl⟩ := Handoff.step_join.mp h
    exact ⟨hdead, rfl, rfl, rfl, False.elim, fun h => nomatch h⟩
  | reap =>
    obtain ⟨answer, -, -, rfl⟩ := Handoff.step_reap.mp h
    exact ⟨hdead, rfl, rfl, rfl, False.elim, fun h => nomatch h⟩

/-- A child that is dead has written all of its message or nothing, where the parent still waits
for it, and left room for its argument, where the parent still writes it. -/
structure WholeWhenDead (capacity : Nat) (s : Handoff β) : Prop where
  message : s.alive = false → s.parent.awaits → s.WholeMessage
  argument : s.alive = false → s.parent = .starting → s.unhanded + s.handed ≤ capacity

/-- The child is dead, and the parent waits for the rest of a message, or for room to write the
rest of an argument. -/
structure HandoffWedged (capacity : Nat) (s : Handoff β) : Prop where
  dead : s.alive = false
  waits : (s.parent.awaits ∧ ¬ s.WholeMessage) ∨ (s.parent = .starting ∧ capacity < s.unhanded + s.handed)

theorem LeftAlone.wholeMessage (h : LeftAlone s s') : s'.WholeMessage ↔ s.WholeMessage := by
  rw [Handoff.WholeMessage, Handoff.WholeMessage, h.unsent, h.written]

private theorem wholeWhenDead_of_alive (halive : s'.alive = true) : WholeWhenDead capacity s' :=
  ⟨fun h => by simp [halive] at h, fun h => by simp [halive] at h⟩

private theorem wholeWhenDead_of_not_awaits (h : ¬ s'.parent.awaits) : WholeWhenDead capacity s' :=
  ⟨fun _ hawaits => absurd hawaits h, fun _ hstarting => absurd (by simp [hstarting, HandoffStage.awaits]) h⟩

private theorem wholeWhenDead_step (e : HandoffEvent) (s s' : Handoff β) (hok : NoDeathMidTransfer capacity e s)
    (hs : Delivered F capacity s ∧ WholeWhenDead capacity s) (h : Handoff.step F capacity e s = some s') :
    Delivered F capacity s' ∧ WholeWhenDead capacity s' := by
  obtain ⟨hdelivered, hwhole⟩ := hs
  refine ⟨delivered_step e s s' hdelivered h, ?_⟩
  cases hdead : s.alive with
  | false =>
    have halone := step_of_dead hdead h
    refine ⟨fun _ hawaits => halone.wholeMessage.mpr (hwhole.message hdead (halone.awaits hawaits)),
      fun _ hstarting => ?_⟩
    rw [halone.argument]
    exact hwhole.argument hdead (halone.starting hstarting)
  | true => cases e with
    | exit =>
      obtain ⟨-, hunsent, hmessage, rfl⟩ := Handoff.step_exit.mp h
      obtain ⟨m, hm⟩ := Option.isSome_iff_exists.mp hmessage
      refine ⟨fun _ _ => .inr hunsent, fun _ _ => ?_⟩
      have hargument := hdelivered.argument m hm
      dsimp only
      omega
    | die =>
      obtain ⟨-, rfl⟩ := Handoff.step_die.mp h
      exact ⟨fun _ => hok.1, fun _ => hok.2⟩
    | killed =>
      obtain ⟨answer, hparent, -, rfl⟩ := Handoff.step_killed.mp h
      exact wholeWhenDead_of_not_awaits (by simp [hparent, HandoffStage.awaits])
    | hand count =>
      obtain ⟨-, -, rfl⟩ := Handoff.step_hand.mp h
      exact wholeWhenDead_of_alive hdead
    | take count =>
      obtain ⟨-, -, rfl⟩ := Handoff.step_take.mp h
      exact wholeWhenDead_of_alive hdead
    | started =>
      obtain ⟨-, -, rfl⟩ := Handoff.step_started.mp h
      exact wholeWhenDead_of_alive hdead
    | put message =>
      obtain ⟨-, -, -, rfl⟩ := Handoff.step_put.mp h
      exact wholeWhenDead_of_alive hdead
    | write count =>
      obtain ⟨-, -, rfl⟩ := Handoff.step_write.mp h
      exact wholeWhenDead_of_alive hdead
    | poll =>
      obtain ⟨-, -, rfl⟩ := Handoff.step_poll.mp h
      exact wholeWhenDead_of_alive hdead
    | pollTimeout =>
      obtain ⟨-, -, rfl⟩ := Handoff.step_pollTimeout.mp h
      exact wholeWhenDead_of_alive hdead
    | read count =>
      obtain ⟨-, -, parent, -, rfl⟩ := Handoff.step_read.mp h
      exact wholeWhenDead_of_alive hdead
    | joinTimeout =>
      obtain ⟨m, -, -, rfl⟩ := Handoff.step_joinTimeout.mp h
      exact wholeWhenDead_of_not_awaits id
    | join =>
      obtain ⟨m, -, -, rfl⟩ := Handoff.step_join.mp h
      exact wholeWhenDead_of_not_awaits id
    | reap =>
      obtain ⟨answer, -, -, rfl⟩ := Handoff.step_reap.mp h
      exact wholeWhenDead_of_not_awaits id

/-- The rest of a message never comes, and there is nothing that would end the waiting. -/
theorem awaits_of_restMissing {e : HandoffEvent} (hs : Delivered F capacity s) (hdead : s.alive = false)
    (hawaits : s.parent.awaits) (hrest : ¬ s.WholeMessage) (h : Handoff.step F capacity e s = some s') :
    s'.parent.awaits := by
  obtain ⟨hwritten, hunsent⟩ := not_or.mp hrest
  cases e with
  -- nothing comes of a dead child
  | take | put | write | exit | die => simp [hdead, Handoff.step] at h
  | hand count =>
    obtain ⟨-, -, rfl⟩ := Handoff.step_hand.mp h
    exact hawaits
  | started =>
    obtain ⟨-, -, rfl⟩ := Handoff.step_started.mp h
    trivial
  | killed =>
    obtain ⟨-, -, -, rfl⟩ := Handoff.step_killed.mp h
    exact hawaits
  | poll =>
    obtain ⟨-, -, rfl⟩ := Handoff.step_poll.mp h
    trivial
  | pollTimeout =>
    -- a poll only times out with the pipe empty, and nothing is received before it
    obtain ⟨hparent, hpipe, -⟩ := Handoff.step_pollTimeout.mp h
    exact absurd (by rw [hs.polling hparent, hpipe]; rfl) hwritten
  | read count =>
    obtain ⟨hparent, hcount, parent, ⟨-, rfl⟩ | ⟨m, hdecode, rfl⟩, rfl⟩ := Handoff.step_read.mp h
    · trivial
    · exfalso
      have hdelivered' := delivered_step _ _ _ hs h
      obtain ⟨m', -, hall⟩ := hs.message_of_pipe (List.ne_nil_of_length_pos (by omega))
      have hmoved : s.received ++ s.pipe.take count ++ (s.pipe.drop count ++ s.unsent) = F.encode m' := by
        rw [← List.append_assoc, List.append_assoc s.received, List.take_append_drop, hall]
      have hencode := hdelivered'.joining m rfl
      obtain ⟨-, hwhole⟩ | ⟨hnone, -⟩ := F.decode_of_prefix ⟨_, hmoved⟩
      · rw [hwhole] at hmoved
        exact hunsent (List.append_eq_nil_iff.mp (List.append_right_eq_self.mp hmoved)).2
      · simp [hdecode] at hnone
  | join =>
    obtain ⟨m, hparent, -⟩ := Handoff.step_join.mp h
    simp [hparent, HandoffStage.awaits] at hawaits
  | joinTimeout =>
    obtain ⟨m, hparent, -⟩ := Handoff.step_joinTimeout.mp h
    simp [hparent, HandoffStage.awaits] at hawaits
  | reap =>
    obtain ⟨answer, hparent, -⟩ := Handoff.step_reap.mp h
    simp [hparent, HandoffStage.awaits] at hawaits

/-- Nor does a parent whose argument is not read get on to `get`. -/
theorem starting_of_unread {e : HandoffEvent} (hs : Delivered F capacity s) (hdead : s.alive = false)
    (hstarting : s.parent = .starting) (hunread : capacity < s.unhanded + s.handed)
    (h : Handoff.step F capacity e s = some s') : s'.parent = .starting := by
  cases e with
  | started =>
    obtain ⟨-, hwritten, -⟩ := Handoff.step_started.mp h
    have hroom := hs.handed
    omega
  | hand count =>
    obtain ⟨-, -, rfl⟩ := Handoff.step_hand.mp h
    exact hstarting
  | take | put | write | exit | die => simp [hdead, Handoff.step] at h
  | _ => simp [hstarting, Handoff.step] at h

private theorem handoffWedged_step (e : HandoffEvent) (s s' : Handoff β)
    (hs : Delivered F capacity s ∧ HandoffWedged capacity s) (h : Handoff.step F capacity e s = some s') :
    Delivered F capacity s' ∧ HandoffWedged capacity s' := by
  obtain ⟨hdelivered, hdead, hwaits⟩ := hs
  have halone := step_of_dead hdead h
  refine ⟨delivered_step e s s' hdelivered h, halone.dead, ?_⟩
  rw [halone.wholeMessage, halone.argument]
  obtain ⟨hawaits, hrest⟩ | ⟨hstarting, hunread⟩ := hwaits
  · exact .inl ⟨awaits_of_restMissing hdelivered hdead hawaits hrest h, hrest⟩
  · exact .inr ⟨starting_of_unread hdelivered hdead hstarting hunread h, hunread⟩

/-- A parent in `get` takes what is in the pipe. -/
theorem get_goes_on (hget : s.parent = .polling ∨ s.parent = .receiving) (hpipe : s.pipe ≠ []) :
    ∃ e s', e ≠ .die ∧ Handoff.step F capacity e s = some s' := by
  cases hparent : s.parent with
  | polling => exact ⟨.poll, _, by simp, Handoff.step_poll.mpr ⟨hparent, hpipe, rfl⟩⟩
  | receiving =>
    have hcount : 0 < 1 ∧ 1 ≤ s.pipe.length := ⟨Nat.one_pos, List.length_pos_of_ne_nil hpipe⟩
    cases hdecode : F.decode (s.received ++ s.pipe.take 1) with
    | none =>
      exact ⟨.read 1, _, by simp, Handoff.step_read.mpr ⟨hparent, hcount, _, .inl ⟨hdecode, rfl⟩, rfl⟩⟩
    | some m =>
      exact ⟨.read 1, _, by simp, Handoff.step_read.mpr ⟨hparent, hcount, _, .inr ⟨m, hdecode, rfl⟩, rfl⟩⟩
  | starting => simp [hparent] at hget
  | joining _ => simp [hparent] at hget
  | terminating _ => simp [hparent] at hget
  | returned _ => simp [hparent] at hget

/-- The parent writes its argument, or the child reads of it, or the argument is written. -/
theorem Delivered.start_goes_on (hs : Delivered F capacity s) (hcapacity : 0 < capacity)
    (hwhole : WholeWhenDead capacity s) (hparent : s.parent = .starting) :
    ∃ e s', e ≠ .die ∧ Handoff.step F capacity e s = some s' := by
  have hroom := hs.handed
  by_cases hwritten : s.unhanded = 0
  · exact ⟨.started, _, by simp, Handoff.step_started.mpr ⟨hparent, hwritten, rfl⟩⟩
  · by_cases hfull : s.handed + 1 ≤ capacity
    · exact ⟨.hand 1, _, by simp, Handoff.step_hand.mpr ⟨hparent, ⟨Nat.one_pos, by omega, hfull⟩, rfl⟩⟩
    · cases halive : s.alive with
      | true => exact ⟨.take 1, _, by simp, Handoff.step_take.mpr ⟨halive, ⟨Nat.one_pos, by omega⟩, rfl⟩⟩
      | false =>
        have hleft := hwhole.argument halive hparent
        omega

/-- A parent that has not returned can go on, or its child can. -/
theorem Delivered.goes_on (hs : Delivered F capacity s) (hcapacity : 0 < capacity) (hwhole : WholeWhenDead capacity s)
    (hreturned : ¬ ∃ outcome, s.parent = .returned outcome) :
    ∃ e s', e ≠ .die ∧ Handoff.step F capacity e s = some s' := by
  cases hparent : s.parent with
  | starting => exact hs.start_goes_on hcapacity hwhole hparent
  | polling =>
    by_cases hpipe : s.pipe = []
    · exact ⟨.pollTimeout, _, by simp, Handoff.step_pollTimeout.mpr ⟨hparent, hpipe, rfl⟩⟩
    · exact get_goes_on (.inl hparent) hpipe
  | receiving =>
    obtain ⟨hdecode, hbytes⟩ := hs.receiving hparent
    by_cases hpipe : s.pipe = []
    · rw [hpipe, List.append_nil] at hbytes
      obtain ⟨m, hm⟩ : ∃ m, s.message = some m :=
        Option.ne_none_iff_exists'.mp fun hnone => hbytes (hs.nothing hnone).1
      -- with all of the message received `get` would have returned it
      have hunsent : s.unsent ≠ [] := by
        intro hnil
        have hall := hs.bytes m hm
        rw [hpipe, hnil, List.append_nil, List.append_nil] at hall
        rw [hall, F.complete] at hdecode
        cases hdecode
      cases halive : s.alive with
      | true =>
        have hroom : s.pipe.length + 1 ≤ capacity := by
          rw [hpipe, List.length_nil]
          omega
        exact ⟨.write 1, _, by simp,
          Handoff.step_write.mpr ⟨halive, ⟨Nat.one_pos, List.length_pos_of_ne_nil hunsent, hroom⟩, rfl⟩⟩
      | false =>
        obtain hnothing | hnil := hwhole.message halive (by simp [hparent, HandoffStage.awaits])
        · exact absurd (List.append_eq_nil_iff.mp hnothing).1 hbytes
        · exact absurd hnil hunsent
    · exact get_goes_on (.inr hparent) hpipe
  | joining m =>
    cases halive : s.alive with
    | true => exact ⟨.joinTimeout, _, by simp, Handoff.step_joinTimeout.mpr ⟨m, hparent, halive, rfl⟩⟩
    | false => exact ⟨.join, _, by simp, Handoff.step_join.mpr ⟨m, hparent, halive, rfl⟩⟩
  | terminating answer =>
    cases halive : s.alive with
    | true => exact ⟨.killed, _, by simp, Handoff.step_killed.mpr ⟨answer, hparent, halive, rfl⟩⟩
    | false => exact ⟨.reap, _, by simp, Handoff.step_reap.mpr ⟨answer, hparent, halive, rfl⟩⟩
  | returned outcome => exact absurd ⟨outcome, hparent⟩ hreturned

/-- The steps the parent has still to take, its reads and its writes apart. -/
def HandoffStage.ahead : HandoffStage → Nat
  | .starting => 5
  | .polling => 4
  | .receiving => 3
  | .joining _ => 2
  | .terminating _ => 1
  | .returned _ => 0

/-- What a hand-off has still to do: each byte is written and read. -/
def Handoff.ahead (s : Handoff β) : Nat :=
  (if s.message.isNone then 1 else 0) + s.alive.toNat + 2 * s.unhanded + s.handed + 2 * s.unsent.length + s.pipe.length +
    s.parent.ahead

private theorem ahead_step (e : HandoffEvent) (s s' : Handoff β) (h : Handoff.step F capacity e s = some s') :
    s'.ahead + 2 * (bytesOf F s.message).length < s.ahead + 2 * (bytesOf F s'.message).length := by
  cases e with
  | hand count =>
    obtain ⟨-, ⟨hpos, hcount, -⟩, rfl⟩ := Handoff.step_hand.mp h
    simp only [Handoff.ahead]
    omega
  | take count =>
    obtain ⟨-, ⟨hpos, hcount⟩, rfl⟩ := Handoff.step_take.mp h
    simp only [Handoff.ahead]
    omega
  | started =>
    obtain ⟨hparent, -, rfl⟩ := Handoff.step_started.mp h
    simp only [Handoff.ahead, hparent, HandoffStage.ahead]
    omega
  | put message =>
    obtain ⟨-, -, hnone, rfl⟩ := Handoff.step_put.mp h
    simp only [Handoff.ahead, hnone, bytesOf, Option.isNone_some, Option.isNone_none, List.length_nil]
    simp
    omega
  | write count =>
    obtain ⟨-, ⟨hpos, hcount, -⟩, rfl⟩ := Handoff.step_write.mp h
    simp only [Handoff.ahead, List.length_append, List.length_take, List.length_drop]
    omega
  | exit =>
    obtain ⟨halive, -, -, rfl⟩ := Handoff.step_exit.mp h
    simp only [Handoff.ahead, halive, Bool.toNat_true, Bool.toNat_false]
    omega
  | die =>
    obtain ⟨halive, rfl⟩ := Handoff.step_die.mp h
    simp only [Handoff.ahead, halive, Bool.toNat_true, Bool.toNat_false]
    omega
  | killed =>
    obtain ⟨-, -, halive, rfl⟩ := Handoff.step_killed.mp h
    simp only [Handoff.ahead, halive, Bool.toNat_true, Bool.toNat_false]
    omega
  | poll =>
    obtain ⟨hparent, -, rfl⟩ := Handoff.step_poll.mp h
    simp only [Handoff.ahead, hparent, HandoffStage.ahead]
    omega
  | pollTimeout =>
    obtain ⟨hparent, -, rfl⟩ := Handoff.step_pollTimeout.mp h
    simp only [Handoff.ahead, hparent, HandoffStage.ahead]
    omega
  | read count =>
    obtain ⟨hparent, hcount, parent, hread, rfl⟩ := Handoff.step_read.mp h
    have hahead : parent.ahead ≤ 3 := by
      obtain ⟨-, rfl⟩ | ⟨m, -, rfl⟩ := hread <;> simp [HandoffStage.ahead]
    have hreceiving : s.parent.ahead = 3 := by
      rw [hparent]
      rfl
    simp only [Handoff.ahead, hreceiving, List.length_drop]
    omega
  | join =>
    obtain ⟨m, hparent, -, rfl⟩ := Handoff.step_join.mp h
    simp only [Handoff.ahead, hparent, HandoffStage.ahead]
    omega
  | joinTimeout =>
    obtain ⟨m, hparent, -, rfl⟩ := Handoff.step_joinTimeout.mp h
    simp only [Handoff.ahead, hparent, HandoffStage.ahead]
    omega
  | reap =>
    obtain ⟨answer, hparent, -, rfl⟩ := Handoff.step_reap.mp h
    simp only [Handoff.ahead, hparent, HandoffStage.ahead]
    omega

/-- No run goes on for ever, so one that is not stuck becomes so. -/
theorem handoff_length_le {argument : Nat} {events : List HandoffEvent}
    (run : exec (Handoff.step F capacity) events (.start argument) = some s) :
    events.length ≤ 2 * (bytesOf F s.message).length + 2 * argument + 7 := by
  have hspent := exec_length_le Handoff.ahead (fun s => 2 * (bytesOf F s.message).length) ahead_step run
  have hstart : (Handoff.start argument : Handoff β).ahead = 2 * argument + 7 := by
    simp [Handoff.ahead, Handoff.start, HandoffStage.ahead]
    omega
  have hnone : (bytesOf F (Handoff.start argument : Handoff β).message).length = 0 := rfl
  omega

/-- The communities of the answer are those of a complete message. -/
theorem outcomeOf_result (answer : Option WorkerMessage) (communities : CommunityMap) :
    (outcomeOf answer).result = some communities ↔ bytesOf F answer = F.encode (.ok communities) := by
  cases answer with
  | none => simpa [outcomeOf, bytesOf, ClusteringOutcome.result] using F.nonempty (.ok communities)
  | some m => cases m with
    | ok raw => simp [outcomeOf, bytesOf, ClusteringOutcome.result, F.encode_injective.eq_iff]
    | error text => simp [outcomeOf, bytesOf, ClusteringOutcome.result, F.encode_injective.eq_iff]

variable (F capacity)

/-- What comes back is what was received in full, with the child gone; and a hand-off that can go
no further has come back exactly if the child did not die in the middle of its message, nor before
its argument fitted the pipe. -/
theorem clustering_handoff_iff (hcapacity : 0 < capacity) (argument : Nat) (events : List HandoffEvent) (s : Handoff β)
    (run : exec (Handoff.step F capacity) events (.start argument) = some s) :
    (∀ outcome, s.parent = .returned outcome → s.alive = false ∧
      ∀ communities, outcome.result = some communities ↔ s.received = F.encode (.ok communities)) ∧
    (Handoff.Stuck F capacity s → ((∃ outcome, s.parent = .returned outcome) ↔
      Along (Handoff.step F capacity) (NoDeathMidTransfer capacity) events (.start argument))) := by
  have hs : Delivered F capacity s := exec_invariant_of_step _ delivered_step (delivered_start argument) run
  refine ⟨fun outcome hparent => ?_, fun hstuck => ⟨fun hreturned => ?_, fun halong => ?_⟩⟩
  · obtain ⟨hdead, answer, rfl, hreceived⟩ := hs.returned outcome hparent
    exact ⟨hdead, fun communities => hreceived ▸ outcomeOf_result answer communities⟩
  · by_contra halong
    obtain ⟨outcome, hparent⟩ := hreturned
    have hwedged : Delivered F capacity s ∧ HandoffWedged capacity s := exec_of_not_along (Delivered F capacity)
      (fun s => Delivered F capacity s ∧ HandoffWedged capacity s) delivered_step ?_ handoffWedged_step
      (delivered_start argument) halong run
    · obtain ⟨-, -, ⟨hawaits, -⟩ | ⟨hstarting, -⟩⟩ := hwedged
      · simp [hparent, HandoffStage.awaits] at hawaits
      · simp [hparent] at hstarting
    · intro e t t' ht hnot hstep
      cases e <;> simp only [NoDeathMidTransfer, not_true] at hnot
      obtain ⟨-, rfl⟩ := Handoff.step_die.mp hstep
      refine ⟨ht.dead, rfl, ?_⟩
      by_cases hmessage : t.parent.awaits → t.WholeMessage
      · obtain ⟨hstarting, hunread⟩ := Classical.not_imp.mp (not_and.mp hnot hmessage)
        exact .inr ⟨hstarting, Nat.lt_of_not_le hunread⟩
      · exact .inl (Classical.not_imp.mp hmessage)
  · obtain ⟨-, hwhole⟩ : Delivered F capacity s ∧ WholeWhenDead capacity s :=
      exec_invariant _ wholeWhenDead_step ⟨delivered_start argument, wholeWhenDead_of_alive rfl⟩ halong run
    by_contra hreturned
    obtain ⟨e, s', he, hstep⟩ := hs.goes_on hcapacity hwhole hreturned
    rw [hstuck e he] at hstep
    cases hstep

/-- A header, and then the message in one piece. -/
def headed : Framing WorkerMessage (Option WorkerMessage) where
  encode m := [none, some m]
  decode
    | [none, some m] => some m
    | _ => none
  complete _ := rfl
  partial_eq_none m bytes h hne := by
    obtain ⟨rest, hrest⟩ := h
    match bytes, hrest with
    | [], _ => rfl
    | [_], hrest => cases hrest; rfl
    | [_, _], hrest => simp_all
    | _ :: _ :: _ :: _, hrest => simp at hrest
  nonempty _ := List.cons_ne_nil _ _

/-- An argument of two bytes through a pipe that holds one, and the message in its two parts. -/
def handedInParts : List HandoffEvent :=
  [.hand 1, .take 1, .hand 1, .take 1, .put (.ok (OrderedDict.empty.set 0 ["a"])), .write 1, .started, .poll, .read 1,
    .write 1, .read 1, .exit, .join]

theorem clustering_handoff_iff_inParts : ∃ s : Handoff (Option WorkerMessage),
    s.parent = .returned (.communities (OrderedDict.empty.set 0 ["a"])) ∧
    Along (Handoff.step headed 1) (NoDeathMidTransfer 1) handedInParts (.start 2) := by
  obtain ⟨s, run, hparent, hdead, hhanded⟩ : ∃ s, exec (Handoff.step headed 1) handedInParts (.start 2) = some s ∧
      s.parent = .returned (.communities (OrderedDict.empty.set 0 ["a"])) ∧ s.alive = false ∧ s.handed = 0 :=
    ⟨_, rfl, rfl, rfl, rfl⟩
  refine ⟨s, hparent, ((clustering_handoff_iff headed 1 Nat.one_pos 2 _ s run).2 fun e _ => ?_).mp ⟨_, hparent⟩⟩
  cases e <;> simp [Handoff.step, hparent, hdead]

/-- The child dies with a part of its message in the pipe, and the parent reads that part. -/
theorem death_mid_message_wedges : ¬ ∀ (events : List HandoffEvent) (s : Handoff (Option WorkerMessage)),
    exec (Handoff.step headed 65536) events (.start 3) = some s → Handoff.Stuck headed 65536 s →
      ∃ outcome, s.parent = .returned outcome := by
  intro h
  obtain ⟨s, run, hparent, hdead, hpipe⟩ : ∃ s, exec (Handoff.step headed 65536)
      [.hand 3, .started, .take 3, .put (.ok (OrderedDict.empty.set 0 ["a"])), .write 1, .die, .poll, .read 1]
      (.start 3) = some s ∧ s.parent = .receiving ∧ s.alive = false ∧ s.pipe = [] := ⟨_, rfl, rfl, rfl, rfl⟩
  obtain ⟨outcome, hreturned⟩ := h _ s run fun e _ => by
    cases e with
    | read count =>
      have hcount : ¬ (0 < count ∧ count ≤ s.pipe.length) := by simp [hpipe]; omega
      simp [Handoff.step, hparent, hcount]
    | _ => simp [Handoff.step, hparent, hdead]
  simp [hparent] at hreturned

end GraphifyDaemon
