import Waveform.Store.Idempotency

/-!
# The held-audio store

Generated speech that Waveform keeps itself. Holding the same request again replaces the bytes and
the reason of the row that is there, and keeps that row's expiry; only its owner may do so.
-/

set_option autoImplicit false

namespace Waveform.Store

open Waveform.Domain

/-- Generated speech to hold. -/
structure HeldAudio where
  requestId : RequestId
  owner : ActorId
  filename : GeneratedAudioFileName
  audio : NormalizedAudio
  reason : HeldReason
  deriving DecidableEq

/-- The row that the insert of `hold` writes. -/
def heldRow (retention : Nat) (now : Readings) (audio : HeldAudio) : HeldRow where
  storageActorId := audio.owner
  filename := audio.filename
  mediaType := "audio/mpeg"
  audio := audio.audio.bytes
  reason := audio.reason
  createdAt := now.begun
  expiresAt := now.begun + retention

/-- The SET clause of `hold`. -/
def HeldRow.replaced (row : HeldRow) (audio : HeldAudio) : HeldRow :=
  { row with audio := audio.audio.bytes, reason := audio.reason }

/-- `hold`: the expiry of the row, or nothing for a held-audio error. `now()` is the start of the
statement's own transaction. -/
def hold (retention : Nat) (now : Readings) (audio : HeldAudio) (db : Db) : Option (Nat × Db) :=
  match db.held audio.requestId with
  | none =>
      let row := heldRow retention now audio
      some (row.expiresAt, db.setHeld audio.requestId (some row))
  | some row =>
      if row.storageActorId = audio.owner then
        some (row.expiresAt, db.setHeld audio.requestId (some (row.replaced audio)))
      else none

/-- The row that `fetch` and `is_held` find: the owner's, and unexpired. -/
def fetch (db : Db) (requestId : RequestId) (owner : ActorId) (now : Nat) : Option HeldRow :=
  (db.held requestId).filter fun row =>
    row.storageActorId == owner && decide (now < row.expiresAt)

/-- `is_held`. -/
def isHeld (db : Db) (requestId : RequestId) (owner : ActorId) (now : Nat) : Bool :=
  (fetch db requestId owner now).isSome

/-- `delete_expired`; the requests are those that the bounded selection picked. -/
def deleteExpiredAudio (now : Readings) (selected : List RequestId) (db : Db) : Db :=
  { db with held := fun requestId =>
      (db.held requestId).filter fun row =>
        !(selected.contains requestId && decide (row.expiresAt ≤ now.begun)) }

theorem fetch_eq_some {db : Db} {requestId : RequestId} {owner : ActorId} {now : Nat}
    {row : HeldRow} :
    fetch db requestId owner now = some row ↔
      db.held requestId = some row ∧ row.storageActorId = owner ∧ now < row.expiresAt := by
  simp [fetch, Option.filter_eq_some_iff]

/-- The row that a successful hold leaves. -/
def heldAfter (retention : Nat) (now : Readings) (audio : HeldAudio) : Option HeldRow → HeldRow
  | none => heldRow retention now audio
  | some row => row.replaced audio

/-- **What a successful `hold` did.** -/
theorem hold_eq_some {retention : Nat} {now : Readings} {audio : HeldAudio} {db db' : Db}
    {expiresAt : Nat} :
    hold retention now audio db = some (expiresAt, db') ↔
      (∀ row, db.held audio.requestId = some row → row.storageActorId = audio.owner) ∧
      expiresAt = (heldAfter retention now audio (db.held audio.requestId)).expiresAt ∧
      db' = db.setHeld audio.requestId
        (some (heldAfter retention now audio (db.held audio.requestId))) := by
  unfold hold
  cases hrow : db.held audio.requestId with
  | none => simp [heldAfter, eq_comm]
  | some row =>
      by_cases howner : row.storageActorId = audio.owner
      · simp [howner, heldAfter, HeldRow.replaced, eq_comm]
      · simp [howner]

end Waveform.Store
