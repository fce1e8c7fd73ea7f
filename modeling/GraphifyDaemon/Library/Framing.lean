import Mathlib.Data.List.Basic

/-! Messages sent as a stream of bytes, which the reader can tell to be complete. -/
namespace Library

/-- How a message is written, and what a reader makes of the bytes it has. -/
structure Framing (μ β : Type) where
  encode : μ → List β
  decode : List β → Option μ
  complete : ∀ m, decode (encode m) = some m
  partial_eq_none : ∀ m bytes, bytes <+: encode m → bytes ≠ encode m → decode bytes = none
  nonempty : ∀ m, encode m ≠ []

namespace Framing
variable {μ β : Type} (F : Framing μ β)

theorem encode_injective : Function.Injective F.encode := by
  intro m m' h
  have hdecoded := F.complete m
  rw [h, F.complete m'] at hdecoded
  exact (Option.some.inj hdecoded).symm

/-- What is read off a part of a message is that message, once the part is the whole. -/
theorem decode_of_prefix {m : μ} {bytes : List β} (h : bytes <+: F.encode m) :
    F.decode bytes = some m ∧ bytes = F.encode m ∨ F.decode bytes = none ∧ bytes ≠ F.encode m := by
  by_cases hwhole : bytes = F.encode m
  · exact .inl ⟨hwhole ▸ F.complete m, hwhole⟩
  · exact .inr ⟨F.partial_eq_none m bytes h hwhole, hwhole⟩

end Framing
end Library
