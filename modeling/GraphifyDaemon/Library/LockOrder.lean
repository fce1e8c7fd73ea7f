import GraphifyDaemon.Library.Trace
import Mathlib.Data.Set.Basic
import Mathlib.Order.WellFounded
import Mathlib.Order.RelClasses

/-! Threads that take locks in an order of the locks, and join only while they hold none. -/
namespace Library
open Trace

variable {κ ι ρ : Type}

/-- What a thread does, as far as locks and other threads' ends go. -/
inductive LockProgram (κ ι : Type) where
  | skip
  | seq (first second : LockProgram κ ι)
  | either (left right : LockProgram κ ι)
  | many (body : LockProgram κ ι)
  | withLock (lock : κ) (body : LockProgram κ ι)
  | join (thread : ι)

/-- What is left of a thread: programs to run and locks to release. -/
inductive LockFrame (κ ι : Type) where
  | run (program : LockProgram κ ι)
  | release (lock : κ)

structure LockThreads (κ ι : Type) where
  frames : ι → List (LockFrame κ ι)
  owner : κ → Option ι

/-- `ρ` names the programs that are started. -/
inductive LockEvent (ι ρ : Type) where
  | start (thread : ι) (route : ρ)
  | next (thread : ι)
  /-- The other one of two. -/
  | other (thread : ι)
  /-- What was to be run is left: a branch not taken, the end of a loop, a return or an exception.
  A lock that was taken is released all the same. -/
  | leave (thread : ι)

namespace LockThreads

def start : LockThreads κ ι := ⟨fun _ => [], fun _ => none⟩

variable [DecidableEq κ] [DecidableEq ι]

def put (thread : ι) (stack : List (LockFrame κ ι)) (s : LockThreads κ ι) : LockThreads κ ι :=
  { s with frames := Function.update s.frames thread stack }

/-- A lock that is held, by whomever, and a thread that runs stop who wants them. -/
def next (thread : ι) (s : LockThreads κ ι) : Option (LockThreads κ ι) :=
  match s.frames thread with
  | [] => none
  | .release lock :: rest => some { s.put thread rest with owner := Function.update s.owner lock none }
  | .run .skip :: rest => some (s.put thread rest)
  | .run (.seq first second) :: rest => some (s.put thread (.run first :: .run second :: rest))
  | .run (.either left _) :: rest => some (s.put thread (.run left :: rest))
  | .run (.many body) :: rest => some (s.put thread (.run body :: .run (.many body) :: rest))
  | .run (.withLock lock body) :: rest =>
    if (s.owner lock).isSome then none
    else some { s.put thread (.run body :: .release lock :: rest) with
      owner := Function.update s.owner lock (some thread) }
  | .run (.join awaited) :: rest => if (s.frames awaited).isEmpty then some (s.put thread rest) else none

def step (program : ρ → LockProgram κ ι) (mayRun : ι → ρ → Bool) :
    LockEvent ι ρ → LockThreads κ ι → Option (LockThreads κ ι)
  | .start thread route, s =>
    if (s.frames thread).isEmpty && mayRun thread route then some (s.put thread [.run (program route)]) else none
  | .next thread, s => s.next thread
  | .other thread, s => match s.frames thread with
    | .run (.either _ right) :: rest => some (s.put thread (.run right :: rest))
    | _ => none
  | .leave thread, s => match s.frames thread with
    | .run _ :: rest => some (s.put thread rest)
    | _ => none

/-- The thread can only go on when the other one has released a lock, or has ended. -/
def WaitsFor (s : LockThreads κ ι) (thread other : ι) : Prop :=
  (∃ lock body rest, s.frames thread = .run (.withLock lock body) :: rest ∧ s.owner lock = some other) ∨
  ∃ rest, s.frames thread = .run (.join other) :: rest ∧ s.frames other ≠ []

/-- Each of these threads waits for one of them. -/
def Deadlocked (s : LockThreads κ ι) (threads : Set ι) : Prop :=
  threads.Nonempty ∧ ∀ t ∈ threads, ∃ u ∈ threads, s.WaitsFor t u

end LockThreads

/-- The locks that are released on the way. -/
def held : List (LockFrame κ ι) → List κ
  | [] => []
  | .run _ :: rest => held rest
  | .release lock :: rest => lock :: held rest

section Order
variable [LT κ]

/-- Every lock is taken above those held, and a join is one of `joins`, with none held. -/
def LockProgram.Ordered (joins : ι → Prop) : List κ → LockProgram κ ι → Prop
  | _, .skip => True
  | locks, .seq first second => first.Ordered joins locks ∧ second.Ordered joins locks
  | locks, .either left right => left.Ordered joins locks ∧ right.Ordered joins locks
  | locks, .many body => body.Ordered joins locks
  | locks, .withLock lock body => (∀ l ∈ locks, l < lock) ∧ body.Ordered joins (lock :: locks)
  | locks, .join thread => locks = [] ∧ joins thread

instance LockProgram.decidableOrdered [DecidableLT κ] [DecidableEq κ] (joins : ι → Prop) [DecidablePred joins] :
    (locks : List κ) → (program : LockProgram κ ι) → Decidable (program.Ordered joins locks)
  | _, .skip => inferInstanceAs (Decidable True)
  | locks, .seq first second =>
    have := decidableOrdered joins locks first
    have := decidableOrdered joins locks second
    inferInstanceAs (Decidable (_ ∧ _))
  | locks, .either left right =>
    have := decidableOrdered joins locks left
    have := decidableOrdered joins locks right
    inferInstanceAs (Decidable (_ ∧ _))
  | locks, .many body => decidableOrdered joins locks body
  | locks, .withLock lock body =>
    have := decidableOrdered joins (lock :: locks) body
    inferInstanceAs (Decidable ((∀ l ∈ locks, l < lock) ∧ _))
  | locks, .join thread => inferInstanceAs (Decidable (locks = [] ∧ joins thread))

theorem LockProgram.Ordered.mono {joins joins' : ι → Prop} (h : ∀ t, joins t → joins' t)
    {program : LockProgram κ ι} {locks : List κ} (hordered : program.Ordered joins locks) :
    program.Ordered joins' locks := by
  induction program generalizing locks with
  | skip => trivial
  | seq first second ihFirst ihSecond => exact ⟨ihFirst hordered.1, ihSecond hordered.2⟩
  | either left right ihLeft ihRight => exact ⟨ihLeft hordered.1, ihRight hordered.2⟩
  | many body ih => exact ih hordered
  | withLock lock body ih => exact ⟨hordered.1, ih hordered.2⟩
  | join thread => exact ⟨hordered.1, h thread hordered.2⟩

/-- Each program that is left is in order above the locks released after it. -/
def StackOrdered (joins : ι → Prop) : List (LockFrame κ ι) → Prop
  | [] => True
  | .run program :: rest => program.Ordered joins (held rest) ∧ StackOrdered joins rest
  | .release _ :: rest => StackOrdered joins rest

namespace LockThreads

/-- Every thread is in order, with its own `joins`, and holds the locks it owns. -/
structure Disciplined (joins : ι → ι → Prop) (s : LockThreads κ ι) : Prop where
  ordered : ∀ t, StackOrdered (joins t) (s.frames t)
  owned : ∀ l t, s.owner l = some t → l ∈ held (s.frames t)

variable {joins : ι → ι → Prop} {s s' : LockThreads κ ι}

theorem disciplined_start : Disciplined joins (start : LockThreads κ ι) where
  ordered _ := trivial
  owned _ _ h := nomatch h

variable [DecidableEq ι]

theorem Disciplined.ordered_update (hs : Disciplined joins s) {t : ι} {stack : List (LockFrame κ ι)}
    (hordered : StackOrdered (joins t) stack) (u : ι) :
    StackOrdered (joins u) (Function.update s.frames t stack u) := by
  by_cases h : u = t
  · subst h
    simpa using hordered
  · simpa [h] using hs.ordered u

/-- A thread that goes on with the locks it has. -/
theorem Disciplined.put (hs : Disciplined joins s) {t : ι} {stack : List (LockFrame κ ι)}
    (hordered : StackOrdered (joins t) stack) (hheld : held stack = held (s.frames t)) :
    Disciplined joins (s.put t stack) where
  ordered := hs.ordered_update hordered
  owned l u howner := by
    by_cases h : u = t
    · subst h
      simpa [LockThreads.put, hheld] using hs.owned l u howner
    · simpa [LockThreads.put, h] using hs.owned l u howner

variable [DecidableEq κ]

theorem Disciplined.acquire (hs : Disciplined joins s) {t : ι} {lock : κ} {body : LockProgram κ ι}
    {rest : List (LockFrame κ ι)} (hframes : s.frames t = .run (.withLock lock body) :: rest) :
    Disciplined joins { s.put t (.run body :: .release lock :: rest) with
      owner := Function.update s.owner lock (some t) } where
  ordered := by
    have hordered := hs.ordered t
    rw [hframes] at hordered
    exact hs.ordered_update ⟨hordered.1.2, hordered.2⟩
  owned l u howner := by
    have hframed : l = lock ∧ u = t ∨ s.owner l = some u := by
      by_cases hl : l = lock
      · subst hl
        simp only [Function.update_self, Option.some.injEq] at howner
        exact .inl ⟨rfl, howner.symm⟩
      · simp only [Function.update_of_ne hl] at howner
        exact .inr howner
    by_cases h : u = t
    · subst h
      have howned : s.owner l = some u → l ∈ held rest := by simpa [hframes, held] using hs.owned l u
      simp only [LockThreads.put, Function.update_self, held, List.mem_cons]
      exact hframed.imp And.left howned
    · simpa [LockThreads.put, h] using hs.owned l u (hframed.resolve_left fun hnew => h hnew.2)

theorem Disciplined.release (hs : Disciplined joins s) {t : ι} {lock : κ} {rest : List (LockFrame κ ι)}
    (hframes : s.frames t = .release lock :: rest) :
    Disciplined joins { s.put t rest with owner := Function.update s.owner lock none } where
  ordered := by
    have hordered := hs.ordered t
    rw [hframes] at hordered
    exact hs.ordered_update hordered
  owned l u howner := by
    have hl : l ≠ lock := by
      rintro rfl
      simp at howner
    simp only [Function.update_of_ne hl] at howner
    have howned := hs.owned l u howner
    by_cases h : u = t
    · subst h
      rw [hframes] at howned
      simpa [LockThreads.put] using (List.mem_cons.mp howned).resolve_left hl
    · simpa [LockThreads.put, h] using howned

/-- What comes next of a program is in order if it is. -/
theorem Disciplined.next (hs : Disciplined joins s) {t : ι} (h : s.next t = some s') : Disciplined joins s' := by
  have hordered := hs.ordered t
  have replace : ∀ {p : LockProgram κ ι} {rest stack}, s.frames t = .run p :: rest →
      StackOrdered (joins t) stack → held stack = held rest → Disciplined joins (s.put t stack) := by
    intro p rest stack hframes hstack hheld
    exact hs.put hstack (by rw [hheld, hframes]; rfl)
  simp only [LockThreads.next] at h
  split at h
  · cases h
  · rename_i lock rest hframes
    cases h
    exact hs.release hframes
  · rename_i rest hframes
    rw [hframes] at hordered
    cases h
    exact replace hframes hordered.2 rfl
  · rename_i first second rest hframes
    rw [hframes] at hordered
    cases h
    exact replace hframes ⟨hordered.1.1, hordered.1.2, hordered.2⟩ rfl
  · rename_i left right rest hframes
    rw [hframes] at hordered
    cases h
    exact replace hframes ⟨hordered.1.1, hordered.2⟩ rfl
  · rename_i body rest hframes
    rw [hframes] at hordered
    cases h
    exact replace hframes ⟨hordered.1, hordered.1, hordered.2⟩ rfl
  · rename_i lock body rest hframes
    split at h
    · cases h
    · cases h
      exact hs.acquire hframes
  · rename_i awaited rest hframes
    rw [hframes] at hordered
    split at h
    · cases h
      exact replace hframes hordered.2 rfl
    · cases h

variable {program : ρ → LockProgram κ ι} {mayRun : ι → ρ → Bool}

/-- The discipline is kept by threads that only run programs in order. -/
theorem disciplined_step (hprogram : ∀ t r, mayRun t r = true → (program r).Ordered (joins t) [])
    (e : LockEvent ι ρ) (s s' : LockThreads κ ι) (hs : Disciplined joins s)
    (h : step program mayRun e s = some s') : Disciplined joins s' := by
  cases e with
  | start t r =>
    simp only [step, Option.ite_none_right_eq_some, Option.some.injEq, Bool.and_eq_true, List.isEmpty_iff] at h
    obtain ⟨⟨hidle, hmay⟩, rfl⟩ := h
    exact hs.put ⟨hprogram t r hmay, trivial⟩ (by simp [hidle, held])
  | next t => exact hs.next h
  | other t =>
    have hordered := hs.ordered t
    simp only [step] at h
    split at h
    · rename_i left right rest hframes
      rw [hframes] at hordered
      cases h
      exact hs.put ⟨hordered.1.2, hordered.2⟩ (by simp [hframes, held])
    · cases h
  | leave t =>
    have hordered := hs.ordered t
    simp only [step] at h
    split at h
    · rename_i p rest hframes
      rw [hframes] at hordered
      cases h
      exact hs.put hordered.2 (by simp [hframes, held])
    · cases h

omit [DecidableEq κ] [DecidableEq ι] in
/-- Who waits for a lock holds only smaller ones, so that a lock somebody in the set waits for
is held by somebody who waits for a greater one: nobody waits for the greatest. -/
theorem Disciplined.not_waitsFor_lock [WellFoundedGT κ] (hs : Disciplined joins s) {threads : Set ι}
    (hdead : ∀ t ∈ threads, ∃ u ∈ threads, s.WaitsFor t u) (lock : κ) :
    ∀ t ∈ threads, ∀ body rest, s.frames t ≠ .run (.withLock lock body) :: rest := by
  induction lock using WellFoundedGT.induction with
  | ind lock ih =>
    intro t ht body rest hframes
    obtain ⟨u, hu, ⟨lock', body', rest', hframes', howner⟩ | ⟨rest', hframes', -⟩⟩ := hdead t ht
    · obtain ⟨rfl, rfl⟩ : lock = lock' ∧ rest = rest' := by
        rw [hframes] at hframes'
        simp_all
      have hheld := hs.owned lock u howner
      have hordered := hs.ordered u
      obtain ⟨v, hv, ⟨greater, body₂, rest₂, hframes₂, -⟩ | ⟨rest₂, hframes₂, -⟩⟩ := hdead u hu
      · rw [hframes₂] at hheld hordered
        exact ih greater (hordered.1.1 lock hheld) u hu body₂ rest₂ hframes₂
      · rw [hframes₂] at hheld hordered
        exact List.ne_nil_of_mem hheld hordered.1.1
    · rw [hframes] at hframes'
      simp at hframes'

omit [DecidableEq κ] [DecidableEq ι] in
theorem Disciplined.not_deadlocked [WellFoundedGT κ] (hjoins : WellFounded fun u t => joins t u)
    (hs : Disciplined joins s) (threads : Set ι) : ¬ s.Deadlocked threads := by
  rintro ⟨⟨t, ht⟩, hdead⟩
  induction t using hjoins.induction with
  | _ t ih =>
    obtain ⟨u, hu, ⟨lock, body, rest, hframes, -⟩ | ⟨rest, hframes, -⟩⟩ := hdead t ht
    · exact hs.not_waitsFor_lock hdead lock t ht body rest hframes
    · have hordered := hs.ordered t
      rw [hframes] at hordered
      exact ih u hordered.1.2 hu

/-- However the threads take turns, no set of them ever waits for itself. -/
theorem not_deadlocked_of_run [WellFoundedGT κ] (hjoins : WellFounded fun u t => joins t u)
    (hprogram : ∀ t r, mayRun t r = true → (program r).Ordered (joins t) [])
    {events : List (LockEvent ι ρ)} (run : exec (step program mayRun) events start = some s)
    (threads : Set ι) : ¬ s.Deadlocked threads :=
  (exec_invariant_of_step _ (disciplined_step hprogram) disciplined_start run).not_deadlocked hjoins threads

end LockThreads
end Order
end Library
