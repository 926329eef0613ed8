import MigrationTransport.TcpProxy.Lossless
import MigrationTransport.TcpProxy.Chunks

/-!
What stands behind the `writer` of `forward_data`: a transport whose send buffer the
destination empties at its own pace, until it is lost. From then on the transport discards
what is written and says nothing; `drain` would, but the call to it is commented out.
-/
namespace Destination
open ByteStream ForwardData Lossless Chunks

/-- `lostAt` is `total_bytes` when the destination was lost, `attemptAt` how many bytes had
    been read when `write_task` next wrote. -/
structure Sink where
  forward : Forward
  sendBuffer : Bytes
  lostAt : Option Nat
  attemptAt : Option Nat
  deriving DecidableEq

inductive Act where
  | forward (a : ForwardData.Act)
  | cancel
  | take (n : Nat)
  | lose
  deriving DecidableEq

def init (stream : Bytes) : Sink where
  forward := ForwardData.init stream
  sendBuffer := []
  lostAt := none
  attemptAt := none

def transmit (s : Sink) (g : Forward) : ForwardData.Act → Sink
  | .write =>
    match s.lostAt with
    | none =>
      { s with forward := g, sendBuffer := s.sendBuffer ++ writeInHand s.forward.writeTask }
    | some _ => { s with forward := g, attemptAt := s.attemptAt.or (some g.bytesRead.length) }
  | _ => { s with forward := g }

/-- On a lost transport `write` does not raise. -/
def step (s : Sink) : Act → Option Sink
  | .forward a =>
    if a = .writeRaises ∧ s.lostAt ≠ none then none
    else (ForwardData.step s.forward a).map fun g => transmit s g a
  | .cancel => some { s with forward := ForwardData.cancel s.forward }
  | .take n =>
    if s.lostAt = none ∧ n ≤ s.sendBuffer.length then
      some { s with sendBuffer := s.sendBuffer.drop n }
    else none
  | .lose =>
    if s.lostAt = none then
      some { s with sendBuffer := [], lostAt := some s.forward.totalBytes }
    else none

inductive Effect (s : Sink) : Act → Sink → Prop where
  | moved (a : ForwardData.Act) (g : Forward) (stepped : ForwardData.step s.forward a = some g)
      (silent : a ≠ .write) : Effect s (.forward a) { s with forward := g }
  | sent (g : Forward) (stepped : ForwardData.step s.forward .write = some g)
      (up : s.lostAt = none) : Effect s (.forward .write) { s with
        forward := g, sendBuffer := s.sendBuffer ++ writeInHand s.forward.writeTask }
  | discarded (g : Forward) (stepped : ForwardData.step s.forward .write = some g) (n : Nat)
      (gone : s.lostAt = some n) : Effect s (.forward .write) { s with
        forward := g, attemptAt := s.attemptAt.or (some g.bytesRead.length) }
  | cancel : Effect s .cancel { s with forward := ForwardData.cancel s.forward }
  | take (n : Nat) (up : s.lostAt = none) (held : n ≤ s.sendBuffer.length) :
      Effect s (.take n) { s with sendBuffer := s.sendBuffer.drop n }
  | lose (up : s.lostAt = none) : Effect s .lose { s with
      sendBuffer := [], lostAt := some s.forward.totalBytes }

theorem step_effect {s t : Sink} {act : Act} (stepped : step s act = some t) :
    Effect s act t := by
  cases act with
  | forward a =>
    simp only [step, Option.ite_none_left_eq_some, Option.map_eq_some_iff] at stepped
    obtain ⟨-, g, stepped, rfl⟩ := stepped
    by_cases written : a = .write
    · subst written
      cases state : s.lostAt with
      | none =>
        simp only [transmit, state]
        exact state ▸ .sent g stepped state
      | some n =>
        simp only [transmit, state]
        exact state ▸ .discarded g stepped n state
    · have moved : transmit s g a = { s with forward := g } := by
        cases a <;> simp_all [transmit]
      exact moved ▸ .moved a g stepped written
  | cancel =>
    simp only [step, Option.some.injEq] at stepped
    exact stepped ▸ .cancel
  | take n =>
    simp only [step, Option.ite_none_right_eq_some, Option.some.injEq] at stepped
    obtain ⟨⟨up, held⟩, rfl⟩ := stepped
    exact .take n up held
  | lose =>
    simp only [step, Option.ite_none_right_eq_some, Option.some.injEq] at stepped
    obtain ⟨up, rfl⟩ := stepped
    exact .lose up

theorem step_sized {s t : Sink} {act : Act} (chunked : Chunked s.forward)
    (stepped : step s act = some t) : Chunked t.forward := by
  cases step_effect stepped with
  | moved a g moved => exact step_chunked chunked moved
  | sent g moved => exact step_chunked chunked moved
  | discarded g moved => exact step_chunked chunked moved
  | cancel => exact cancel_chunked chunked
  | take | lose => exact chunked

end Destination
