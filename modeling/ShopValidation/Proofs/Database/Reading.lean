import ShopValidation.Database.Server
import ShopValidation.Proofs.Location.UidText

/-!
# Rows read back

What is written into a row is what is read from it: the text of a location is parsed into the same
location, the code of a reason is looked up as the same reason, and a time of whole microseconds is
not cut.
-/

namespace ShopValidation

namespace Instant

/-- Whether a time is a whole number of microseconds, and not within a leap second. -/
def IsWhole (t : Instant) : Prop := t.nano < 1000000000 ∧ t.nano % 1000 = 0

/-- A time of whole microseconds is kept as it is. -/
theorem IsWhole.wholeMicros {t : Instant} (h : t.IsWhole) : t.wholeMicros = t := by
  obtain ⟨hnano, hmicros⟩ := h
  have hcut : databaseEpoch + (t.nanos - databaseEpoch).tdiv 1000 * 1000 = t.nanos := by
    have hdvd : (1000 : Int) ∣ t.nanos - databaseEpoch := by
      unfold nanos databaseEpoch
      omega
    rw [Int.tdiv_mul_cancel hdvd]
    omega
  have hsecond : t.nanos / 1000000000 = t.second := by
    unfold nanos
    omega
  have hrest : (t.nanos % 1000000000).toNat = t.nano := by
    unfold nanos
    omega
  rw [Instant.wholeMicros, hcut, ofNanos?, ofParts?, hsecond, hrest,
    dif_pos ⟨t.nano_lt, t.earliest_le, t.le_latest⟩]
  rfl

/-- An optional time of whole microseconds is kept as it is. -/
theorem map_wholeMicros {t : Option Instant} (h : ∀ t' ∈ t, t'.IsWhole) :
    t.map wholeMicros = t := by
  cases t with
  | none => rfl
  | some t => exact congrArg some (h t rfl).wholeMicros

end Instant

/-- The columns of a shop are read as the shop whose location they spell. -/
theorem ShopRecord.toShop_row {record : ShopRecord} {uid : LocationUid}
    (huid : record.osmUid = uid.render) (htime : ∀ t ∈ record.lastValidation, t.IsWhole) :
    record.row.toShop =
      .ok ⟨⟨record.id⟩, uid, record.lat, record.lon, record.lastValidation, record.creator⟩ := by
  have hread : Row.readUid uid.render = .ok uid := by
    rw [Row.readUid, LocationUid.parse_render]
    rfl
  simp only [Row.toShop, row, Row.required, huid, bind, Except.bind, hread,
    Instant.map_wholeMicros htime]
  rfl

/-- The columns of a task beside those of a shop are read as the task whose reason they name. -/
theorem TaskRecord.toQueuedTask_rowWith {task : TaskRecord} {record : ShopRecord} {reason : Reason}
    {shop : Shop} (hreason : task.reason = reason.code) (htime : task.enqueuedAt.IsWhole)
    (hshop : record.row.toShop = .ok shop) :
    (task.rowWith record).toQueuedTask =
      .ok ⟨⟨⟨⟨task.shopId⟩, task.source, reason, task.enqueuedAt⟩, ⟨task.id⟩⟩, shop⟩ := by
  have hread : (task.rowWith record).toShop = .ok shop := hshop
  have hcode : Row.readReason reason.code = .ok reason := by
    rw [Row.readReason, Reason.ofCode?_code]
  simp only [Row.toQueuedTask, hread]
  simp only [rowWith, Row.required, hreason, bind, Except.bind, hcode, htime.wholeMicros]
  rfl

end ShopValidation
