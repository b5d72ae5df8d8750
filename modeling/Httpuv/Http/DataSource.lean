import Httpuv.Constants

/-! `DataSource`: a body is asked for one buffer at a time, and an empty buffer
is its end. -/
namespace Httpuv

/-- The virtual methods that produce data. An exception is `none`. -/
class DataSource (Source : Type) where
  size : Source → Nat
  getData : Source → Nat → Option (Bytes × Source)

structure InMemoryDataSource where
  buffer : Bytes
  pos : Nat
  deriving DecidableEq, Repr

namespace InMemoryDataSource

def size (source : InMemoryDataSource) : Nat := source.buffer.length

def getData (source : InMemoryDataSource) (bytesDesired : Nat) :
    Option (Bytes × InMemoryDataSource) :=
  let bytes := min bytesDesired (source.buffer.length - source.pos)
  some ((source.buffer.drop source.pos).take bytes, { source with pos := source.pos + bytes })

instance : DataSource InMemoryDataSource where
  size := size
  getData := getData

end InMemoryDataSource

/-- The number of bytes that `ExtendedWrite::next` asks for. -/
def bytesDesired : Nat := 65536

/-- The source answers with these non-empty buffers and then with an empty one. -/
def Delivers {Source : Type} [DataSource Source] (source : Source) : List Bytes → Prop
  | [] => ∃ after, DataSource.getData source bytesDesired = some ([], after)
  | buffer :: buffers => buffer ≠ [] ∧ ∃ after,
      DataSource.getData source bytesDesired = some (buffer, after) ∧ Delivers after buffers

/-- A source delivers one sequence of buffers. -/
theorem Delivers.unique {Source : Type} [DataSource Source] {source : Source}
    {buffers buffers' : List Bytes} (h : Delivers source buffers) (h' : Delivers source buffers') :
    buffers = buffers' := by
  induction buffers generalizing source buffers' with
  | nil =>
      obtain ⟨after, hData⟩ := h
      cases buffers' with
      | nil => rfl
      | cons buffer' buffers' =>
          obtain ⟨hBuffer, after', hData', -⟩ := h'
          simp_all
  | cons buffer buffers ih =>
      obtain ⟨hBuffer, after, hData, hRest⟩ := h
      cases buffers' with
      | nil =>
          obtain ⟨after', hData'⟩ := h'
          simp_all
      | cons buffer' buffers' =>
          obtain ⟨-, after', hData', hRest'⟩ := h'
          rw [hData, Option.some.injEq, Prod.mk.injEq] at hData'
          obtain ⟨rfl, rfl⟩ := hData'
          rw [ih hRest hRest']

theorem Delivers.ne_nil {Source : Type} [DataSource Source] {source : Source}
    {buffers : List Bytes} (h : Delivers source buffers) : ∀ buffer ∈ buffers, buffer ≠ [] := by
  induction buffers generalizing source with
  | nil => simp
  | cons buffer buffers ih =>
      obtain ⟨hBuffer, after, -, hRest⟩ := h
      simpa [hBuffer] using ih hRest

/-- A source that only passes the data of another one on. -/
theorem delivers_wrap {Source Other : Type} [DataSource Source] [DataSource Other]
    {wrap : Source → Other}
    (hData : ∀ source, DataSource.getData (wrap source) bytesDesired =
      (DataSource.getData source bytesDesired).map (fun result => (result.1, wrap result.2)))
    {source : Source} {buffers : List Bytes} :
    Delivers (wrap source) buffers ↔ Delivers source buffers := by
  induction buffers generalizing source with
  | nil =>
      cases hNext : DataSource.getData source bytesDesired with
      | none => simp [Delivers, hData, hNext]
      | some result =>
          obtain ⟨data, after⟩ := result
          simp [Delivers, hData, hNext]
  | cons buffer buffers ih =>
      cases hNext : DataSource.getData source bytesDesired with
      | none => simp [Delivers, hData, hNext]
      | some result =>
          obtain ⟨data, after⟩ := result
          simp [Delivers, hData, hNext, ← ih, and_assoc]

end Httpuv
