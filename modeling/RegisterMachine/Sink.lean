/-! Where a run writes to: a sequence of bytes that may have room for a limited number of them. -/

namespace RegisterMachine

structure Sink where
  limit : Option Nat := none
  bytes : ByteArray := .empty

namespace Sink

def hasRoom (sink : Sink) (bytes : ByteArray) : Bool :=
  match sink.limit with
  | none => true
  | some n => sink.bytes.size + bytes.size ≤ n

/-- The sink after writing: bytes past its limit are lost. -/
def write (sink : Sink) (bytes : ByteArray) : Sink :=
  match sink with
  | { limit := none, bytes := old } => { limit := none, bytes := old ++ bytes }
  | { limit := some n, bytes := old } =>
      let room := n - old.size
      { limit := some n, bytes := old ++ bytes.extract 0 room }

def refusal : String := "pipe closed"

end Sink

/-- The program's own output, and the dumps it asks for. -/
inductive Channel where
  | out
  | diag
  deriving DecidableEq, Repr

structure Streams where
  out : Sink := {}
  diag : Sink := {}

namespace Streams

def get (streams : Streams) : Channel → Sink
  | .out => streams.out
  | .diag => streams.diag

def write : Streams → Channel → ByteArray → Streams
  | ⟨out, diag⟩, .out, bytes => ⟨out.write bytes, diag⟩
  | ⟨out, diag⟩, .diag, bytes => ⟨out, diag.write bytes⟩

end Streams

end RegisterMachine
