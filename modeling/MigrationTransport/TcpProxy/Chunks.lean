import MigrationTransport.TcpProxy.ForwardData

/-!
The sizes of the chunks that `forward_data` handles. Each is what one `reader.read(8192)`
returned, so it has between 1 and 8192 bytes, whatever raises or is cancelled.
-/
namespace Chunks
open ByteStream ForwardData

def Sized (data : Bytes) : Prop := 0 < data.length ∧ data.length ≤ readSize

structure Chunked (f : Forward) : Prop where
  putting : ∀ data, f.readTask = .putting data → Sized data
  queued : ∀ data ∈ f.queue.items, Sized data
  writing : ∀ data, f.writeTask = .writing data → Sized data

theorem absent_chunked (stream : Bytes) : Chunked (absent stream) := by
  constructor <;> simp [absent]

theorem create_chunked {f : Forward} (chunked : Chunked f) : Chunked (create f) :=
  ⟨chunked.putting, chunked.queued, chunked.writing⟩

theorem init_chunked (stream : Bytes) : Chunked (init stream) :=
  create_chunked (absent_chunked stream)

theorem cancel_chunked {f : Forward} (chunked : Chunked f) : Chunked (cancel f) := by
  obtain ⟨putting, queued, writing⟩ := chunked
  unfold cancel
  split <;> exact ⟨putting, queued, writing⟩

theorem notify_writing {pc : WritePc} {data : Bytes} :
    notify pc = .writing data ↔ pc = .writing data := by
  cases pc <;> simp [notify]

theorem put_members {maxsize : Nat} {q : CircularQueue Bytes maxsize} {data chunk : Bytes}
    (member : chunk ∈ (q.put data).items) : chunk ∈ q.items ∨ chunk = data := by
  unfold CircularQueue.put at member
  split at member
  · exact .inl member
  · have kept := List.mem_of_mem_drop member
    rwa [List.mem_append, List.mem_singleton] at kept

theorem read_sized {unread : Bytes} {n : Nat} (positive : 0 < n) (small : n ≤ readSize)
    (available : n ≤ unread.length) : Sized (unread.take n) := by
  rw [Sized, List.length_take_of_le available]
  exact ⟨positive, small⟩

theorem step_chunked {f g : Forward} {a : Act} (chunked : Chunked f)
    (stepped : step f a = some g) : Chunked g := by
  obtain ⟨putting, queued, writing⟩ := chunked
  cases step_effect stepped with
  | start => exact ⟨by simp, queued, by simp⟩
  | startRead | eof | readRaises | cancelReading | cancelRead =>
    exact ⟨by simp, queued, writing⟩
  | startWrite | getWaits | getNone | write | writeRaises | cancelWrite =>
    exact ⟨putting, queued, by simp⟩
  | read n reading kept positive small available =>
    refine ⟨?_, queued, writing⟩
    rintro data ⟨⟩
    exact read_sized positive small available
  | put data inHand =>
    refine ⟨by simp, ?_, fun chunk same => writing chunk (notify_writing.mp same)⟩
    intro chunk member
    rcases put_members member with old | rfl
    · exact queued chunk old
    · exact putting chunk inHand
  | close => exact ⟨by simp, queued, fun chunk same => writing chunk (notify_writing.mp same)⟩
  | getItem data rest getting kept got =>
    obtain ⟨content, -⟩ := CircularQueue.get_item got
    refine ⟨putting, fun chunk member => queued chunk (by simp [content, member]), ?_⟩
    rintro chunk ⟨⟩
    exact queued data (by simp [content])
  | dropped | gathered => exact ⟨putting, queued, writing⟩

end Chunks
