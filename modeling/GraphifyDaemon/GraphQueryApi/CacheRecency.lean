import GraphifyDaemon.Library.LruRecency
import GraphifyDaemon.GraphQueryApi.QueryCache

/-! `QueryCache` over any sequence of calls: which answers it still has, how many, and what it
counts. Its lock makes each call one step. -/
namespace GraphifyDaemon
open Library

variable {ν : Type} [DecidableEq ν]

namespace QueryCache

abbrev Call (ν : Type) := CacheCall (CacheKey ν) String

/-- What the call leaves of the cache. -/
def run (cache : QueryCache ν) : Call ν → QueryCache ν
  | .get key => (cache.get key).2
  | .set key result => cache.set key result

/-- The cache after these calls, the most recent first. -/
def after (maxsize : Int) : List (Call ν) → QueryCache ν
  | [] => .initial maxsize
  | call :: earlier => (after maxsize earlier).run call

def lookups (calls : List (Call ν)) : Nat :=
  calls.countP fun call => match call with
    | .get _ => true
    | .set _ _ => false

/-- A look-up is one of the entries and one count. -/
theorem get_eq (key : CacheKey ν) (cache : QueryCache ν) :
    (cache.get key).1 = (cache.lru.get key).1 ∧ (cache.get key).2.lru = (cache.lru.get key).2 ∧
      (cache.get key).2.hits + (cache.get key).2.misses = cache.hits + cache.misses + 1 := by
  unfold QueryCache.get
  split
  · rename_i lru hget
    rw [hget]
    exact ⟨rfl, rfl, (Nat.add_assoc _ _ _).symm⟩
  · rename_i text lru hget
    rw [hget]
    exact ⟨rfl, rfl, Nat.add_right_comm _ _ _⟩

private theorem lru_after (maxsize : Int) (calls : List (Call ν)) : (after maxsize calls).lru =
    CacheCall.after maxsize calls := by
  induction calls with
  | nil => rfl
  | cons call earlier ih =>
    cases call with
    | get key =>
      show ((after maxsize earlier).get key).2.lru = (LruCache.get key (CacheCall.after maxsize earlier)).2
      rw [(get_eq key _).2.1, ih]
    | set key result =>
      show LruCache.set key result (after maxsize earlier).lru = LruCache.set key result (CacheCall.after maxsize earlier)
      rw [ih]

private theorem counted_after (maxsize : Int) (calls : List (Call ν)) :
    (after maxsize calls).hits + (after maxsize calls).misses = lookups calls := by
  induction calls with
  | nil => rfl
  | cons call earlier ih =>
    cases call with
    | get key =>
      have hcount : lookups (.get key :: earlier) = lookups earlier + 1 := by simp [lookups]
      show ((after maxsize earlier).get key).2.hits + ((after maxsize earlier).get key).2.misses = _
      rw [(get_eq key _).2.2, ih, hcount]
    | set key result =>
      have hcount : lookups (.set key result :: earlier) = lookups earlier := by simp [lookups]
      rw [hcount]
      exact ih

end QueryCache

/-- An answer is found exactly if it is what was stored last under its key and fewer than
`maxsize` other keys were stored or hit since the key was. There are never more than `maxsize`
entries, and each look-up is counted once. -/
theorem queryCache_recency (maxsize : Nat) (calls : List (QueryCache.Call ν)) :
    (∀ key result, ((QueryCache.after maxsize calls).get key).1 = some result ↔
      CacheCall.lastSet key calls = some result ∧ othersSince key (CacheCall.uses maxsize calls) < maxsize) ∧
    (QueryCache.after maxsize calls).lru.entries.items.length ≤ maxsize ∧
    (QueryCache.after maxsize calls).hits + (QueryCache.after maxsize calls).misses = QueryCache.lookups calls := by
  refine ⟨fun key result => ?_, ?_, QueryCache.counted_after maxsize calls⟩
  · rw [(QueryCache.get_eq key _).1, QueryCache.lru_after]
    exact CacheCall.get_after_iff maxsize calls key result
  · rw [QueryCache.lru_after]
    exact CacheCall.length_after maxsize calls

/-- With room for two, a hit saves the older of two entries. -/
example :
    let key (question : String) : CacheKey Nat := ⟨1, .str question, .str "bfs", 3, 2000, none⟩
    let calls : List (QueryCache.Call Nat) := [.set (key "c") "C", .get (key "a"), .set (key "b") "B", .set (key "a") "A"]
    ((QueryCache.after 2 calls).get (key "a")).1 = some "A" ∧ ((QueryCache.after 2 calls).get (key "b")).1 = none := by
  decide

end GraphifyDaemon
