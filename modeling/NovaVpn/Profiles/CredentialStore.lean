import Mathlib.Data.List.AList
import NovaVpn.Core.Status

/-!
# The credential store

`Profiles/CredentialStore.cpp`: the vault of secrets, by target. Every target
is put under the prefix of the product, unless it is there already.
-/

namespace NovaVpn.Profiles

def credentialTargetPrefix : String := "NovaVPN/"

/-- The name of an entry in the vault. -/
def vaultTarget (target : String) : String :=
  if credentialTargetPrefix.toList.isPrefixOf target.toList then target
  else credentialTargetPrefix ++ target

structure Credential where
  userName : String
  secret : String
  deriving DecidableEq, Repr

/-- The vault, by the names of its entries. -/
abbrev Vault := AList fun _ : String => Credential

/-- `CRED_MAX_CREDENTIAL_BLOB_SIZE`. -/
def maxCredentialBlobSize : Nat := 5 * 512

namespace Vault

/-- `win` is the outcome of `CredWriteW`. -/
def store (v : Vault) (target userName secret : String) (win : Status) : Vault × Status :=
  if target.isEmpty then (v, Err.invalidArgument "credential target is empty")
  else if secret.utf8ByteSize > maxCredentialBlobSize then
    (v, Err.invalidArgument "secret exceeds the credential store blob limit")
  else if win.isError then (v, win)
  else (v.insert (vaultTarget target) { userName, secret }, .ok)

/-- `erase`, when `CredDeleteW` succeeds or finds no entry. -/
def erase (v : Vault) (target : String) : Vault := AList.erase (vaultTarget target) v

def contains (v : Vault) (target : String) : Bool := vaultTarget target ∈ v

/-- `win` is the outcome of `CredReadW`, but for a missing entry. -/
def retrieve (v : Vault) (target : String) (win : Status) : Result String :=
  if win.isError then .error win
  else
    match v.lookup (vaultTarget target) with
    | none => .error (Win.fromWin32 Win.errorNotFound ("CredRead(" ++ target ++ ")"))
    | some credential => .ok credential.secret

/-- A store that fails leaves the vault as it was. -/
theorem store_cases (v : Vault) (target userName secret : String) (win : Status) :
    ((v.store target userName secret win).2.isError = true ∧
        (v.store target userName secret win).1 = v) ∨
      v.store target userName secret win =
        (v.insert (vaultTarget target) { userName, secret }, .ok) := by
  unfold store
  split
  next => exact Or.inl ⟨rfl, rfl⟩
  next =>
    split
    next => exact Or.inl ⟨rfl, rfl⟩
    next =>
      split
      next hwin => exact Or.inl ⟨hwin, rfl⟩
      next => exact Or.inr rfl

end Vault

end NovaVpn.Profiles
