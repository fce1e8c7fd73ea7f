import GraphifyDaemon.Library.TextReplace
import GraphifyDaemon.VaultCompiler.Exclusions

/-! `sanitize_log_text`, which takes the vault's location out of texts that other code wrote. -/
namespace GraphifyDaemon
open Library Library.TextReplace

/-- `str(path)` of an absolute path. -/
structure AbsoluteSpelling where
  text : String
  absolute : ∃ rest, text.toList = '/' :: rest

def VAULT_MARKER : String := "<vault>"

/-- `text.replace(spelling, "<vault>")` -/
def AbsoluteSpelling.scrub (spelling : AbsoluteSpelling) (text : String) : String :=
  String.ofList (replace spelling.text.toList VAULT_MARKER.toList text.toList)

/-- `sanitize_log_text`. The argument stands for `Path.resolve(strict=False)` on the file system
of that moment. -/
def sanitizeLogText (resolve : AbsoluteSpelling → Except PyError AbsoluteSpelling) (text : String)
    (vaultRoot : AbsoluteSpelling) : Except PyError String :=
  match resolve vaultRoot with
  | .error e => .error e
  | .ok resolved => .ok (vaultRoot.scrub (resolved.scrub text))

namespace AbsoluteSpelling

/-- The spelling occurs in the text. -/
def OccursIn (spelling : AbsoluteSpelling) (text : String) : Prop := spelling.text.toList <:+: text.toList

private theorem foreign {spelling : AbsoluteSpelling} (h : '<' ∉ spelling.text.toList) :
    Foreign VAULT_MARKER.toList spelling.text.toList where
  begins := by
    obtain ⟨rest, hrest⟩ := spelling.absolute
    exact ⟨'/', rest, hrest, by decide⟩
  includes := ⟨'<', "vault>".toList, rfl, h⟩

private theorem not_occursIn_scrub {spelling : AbsoluteSpelling} (h : '<' ∉ spelling.text.toList) (text : String) :
    ¬ spelling.OccursIn (spelling.scrub text) := by
  unfold OccursIn scrub
  rw [String.toList_ofList]
  exact not_infix_replace (foreign h) 0 text.toList

/-- Taking one spelling out does not put another in. -/
theorem occursIn_of_occursIn_scrub {spelling other : AbsoluteSpelling} (h : '<' ∉ spelling.text.toList) {text : String}
    (hoccurs : spelling.OccursIn (other.scrub text)) : spelling.OccursIn text := by
  unfold OccursIn scrub at hoccurs
  rw [String.toList_ofList] at hoccurs
  exact infix_of_infix_replace (foreign h) hoccurs

end AbsoluteSpelling

open AbsoluteSpelling

/-- Neither spelling of the vault root is left in a scrubbed text. -/
theorem sanitizeLogText_complete (resolve : AbsoluteSpelling → Except PyError AbsoluteSpelling)
    (vaultRoot : AbsoluteSpelling) {resolved : AbsoluteSpelling} (hresolve : resolve vaultRoot = .ok resolved)
    (hresolved : '<' ∉ resolved.text.toList) (hunresolved : '<' ∉ vaultRoot.text.toList) (text : String) :
    ∃ scrubbed, sanitizeLogText resolve text vaultRoot = .ok scrubbed ∧
      ¬ resolved.OccursIn scrubbed ∧ ¬ vaultRoot.OccursIn scrubbed := by
  refine ⟨vaultRoot.scrub (resolved.scrub text), by simp [sanitizeLogText, hresolve], fun hoccurs => ?_, ?_⟩
  · exact not_occursIn_scrub hresolved text (occursIn_of_occursIn_scrub hresolved hoccurs)
  · exact not_occursIn_scrub hunresolved (resolved.scrub text)

def vaultRoot : AbsoluteSpelling := ⟨"/vault", "vault".toList, rfl⟩

/-- Where the root above leads when it is a link; its spelling ends in the root's own. -/
def linkedRoot : AbsoluteSpelling := ⟨"/data/vault", "data/vault".toList, rfl⟩

theorem sanitizeLogText_complete_linkedRoot :
    ∃ scrubbed,
      sanitizeLogText (fun _ => .ok linkedRoot) "/data/vault/a.md: no /vault/data/vault" vaultRoot = .ok scrubbed ∧
      ¬ linkedRoot.OccursIn scrubbed ∧ ¬ vaultRoot.OccursIn scrubbed :=
  have hresolved : '<' ∉ linkedRoot.text.toList := by decide
  have hunresolved : '<' ∉ vaultRoot.text.toList := by decide
  sanitizeLogText_complete (fun _ => .ok linkedRoot) vaultRoot rfl hresolved hunresolved
    "/data/vault/a.md: no /vault/data/vault"

end GraphifyDaemon
