import Httpuv.Http.DataSource
import Httpuv.Framing.Numeral
import Httpuv.Semantics.System

/-! `ExtendedWrite`: one write at a time, until the source is exhausted. -/
namespace Httpuv

open Semantics

def CRLF : Bytes := ascii "\r\n"

def TRAILER : Bytes := ascii "0\r\n\r\n"

structure ExtendedWrite (Source : Type) where
  chunked : Bool
  activeWrites : Nat
  errored : Bool
  completed : Bool
  pDataSource : Source
  deriving DecidableEq, Repr

/-- What a step does outside the object. The answer of libuv is recorded with
each `uv_write`. -/
inductive WriteEffect where
  | freeData
  | close
  | onWriteComplete (status : Int)
  | uvWrite (bufs : List Bytes) (accepted : Bool)
  deriving DecidableEq, Repr

/-- `WriteOp::bufs`: empty parts are left out. -/
def bufs (pre buffer post : Bytes) : List Bytes :=
  [pre, buffer, post].filter (· != [])

namespace ExtendedWrite

variable {Source : Type}

def construct (source : Source) (chunked : Bool) : ExtendedWrite Source where
  chunked := chunked
  activeWrites := 0
  errored := false
  completed := false
  pDataSource := source

/-- The branch of `next` for a stream that is over. -/
def dispose (write : ExtendedWrite Source) : List WriteEffect :=
  if write.activeWrites = 0 then
    [.close, .onWriteComplete (if write.errored then 1 else 0)]
  else []

/-- What goes around a buffer. -/
def pre (write : ExtendedWrite Source) (buf : Bytes) : Bytes :=
  if write.chunked && buf != [] then Framing.Numeral.format 16 buf.length ++ CRLF else []

def post (write : ExtendedWrite Source) (buf : Bytes) : Bytes :=
  if write.chunked then (if buf = [] then TRAILER else CRLF) else []

variable [DataSource Source]

/-- `accepted` is what `uv_write` answers if the call is made. Its result is
not looked at. -/
def next (write : ExtendedWrite Source) (accepted : Bool) :
    ExtendedWrite Source × List WriteEffect :=
  if write.errored || write.completed then (write, write.dispose)
  else
    match DataSource.getData write.pDataSource bytesDesired with
    | none =>
        let write := { write with errored := true }
        (write, if write.activeWrites = 0 then [.close, .onWriteComplete 1] else [])
    | some (buf, source) =>
        let write := { write with
          pDataSource := source, completed := write.completed || buf == [] }
        if write.pre buf = [] ∧ buf = [] ∧ write.post buf = [] then
          -- the recursive call finds `completed` set
          (write, .freeData :: write.dispose)
        else
          ({ write with activeWrites := write.activeWrites + 1 },
            [.uvWrite (bufs (write.pre buf) buf (write.post buf)) accepted])

/-- Whether `next` gets as far as `uv_write`. -/
def issuesWrite (write : ExtendedWrite Source) : Bool :=
  !(write.errored || write.completed) &&
    match DataSource.getData write.pDataSource bytesDesired with
    | none => false
    | some (buf, _) => write.chunked || buf != []

end ExtendedWrite

/-- An `ExtendedWrite` and the writes libuv has accepted and not yet called
back. -/
structure WriteState (Source : Type) where
  write : ExtendedWrite Source
  begun : Bool
  outstanding : Nat
  deriving DecidableEq, Repr

/-- A completion tells whether the write queue of the handle is empty, and both
actions tell what `uv_write` answers in them. The status of a completed write
is not looked at. -/
inductive WriteAction where
  | begin (accepted : Bool)
  | complete (status : Int) (queueEmpty accepted : Bool)
  deriving DecidableEq, Repr

namespace WriteState

variable {Source : Type} [DataSource Source]

/-- The accepted ones among the writes of a step. -/
def issued (effects : List WriteEffect) : Nat :=
  effects.countP (fun effect => match effect with
    | .uvWrite _ accepted => accepted
    | _ => false)

/-- `begin` and `WriteOp::end`. -/
def step (state : WriteState Source) : WriteAction → Option (WriteState Source × List WriteEffect)
  | .begin accepted =>
      if state.begun then none
      else
        let (write, effects) := state.write.next accepted
        some ({ write, begun := true, outstanding := state.outstanding + issued effects }, effects)
  | .complete _ queueEmpty accepted =>
      if state.outstanding = 0 then none
      else
        let write := { state.write with activeWrites := state.write.activeWrites - 1 }
        if queueEmpty then
          let (write, effects) := write.next accepted
          some ({ state with write, outstanding := state.outstanding - 1 + issued effects },
            .freeData :: effects)
        else some ({ state with write, outstanding := state.outstanding - 1 }, [.freeData])

def construct (source : Source) (chunked : Bool) : WriteState Source where
  write := .construct source chunked
  begun := false
  outstanding := 0

def Initial (state : WriteState Source) : Prop :=
  ∃ source chunked, state = construct source chunked

def system : System (WriteState Source) WriteAction WriteEffect := System.ofStep Initial step

end WriteState

end Httpuv
