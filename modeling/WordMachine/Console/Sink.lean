namespace WordMachine

-- Why a line could not be written: the error of the writer, of which only the text is known.
structure SinkFault where
  message : String
  deriving DecidableEq, Repr

-- Where the output goes. A sink with a line limit takes text until it holds that many line ends,
-- and from then on no more than it has room for. A sink that refuses to flush keeps what was
-- written all the same. The errors it gives may be any.
structure Sink where
  text : String
  lineEnds : Nat
  lineLimit : Option Nat
  room : Nat
  refusesFlush : Bool
  whenFull : SinkFault
  whenFlushed : SinkFault
  deriving DecidableEq, Repr

namespace Sink

-- A sink that takes everything, and has no use for its errors.
def unlimited : Sink := ⟨"", 0, none, 0, false, ⟨"sink is full"⟩, ⟨"flush refused"⟩⟩

def isFull (sink : Sink) : Bool :=
  match sink.lineLimit with
  | none => false
  | some limit => limit ≤ sink.lineEnds

-- One piece of text. Of a piece that a full sink has no room for, it takes the beginning.
def put (sink : Sink) (piece : String) : Except SinkFault Unit × Sink :=
  if sink.isFull then
    let taken := piece.toList.take sink.room
    let held := { sink with
      text := sink.text ++ String.ofList taken
      room := sink.room - taken.length }
    (if sink.room < piece.length then .error sink.whenFull else .ok (), held)
  else
    (.ok (), { sink with
      text := sink.text ++ piece
      lineEnds := sink.lineEnds + piece.toList.count '\n' })

def flush (sink : Sink) : Except SinkFault Unit :=
  if sink.refusesFlush then .error sink.whenFlushed else .ok ()

-- A line and then its end, as two pieces, and a flush. What was taken before a fault stays.
def writeLine (sink : Sink) (line : String) : Except SinkFault Unit × Sink :=
  match sink.put line with
  | (.error fault, sink) => (.error fault, sink)
  | (.ok (), sink) =>
    match sink.put "\n" with
    | (.error fault, sink) => (.error fault, sink)
    | (.ok (), sink) => (sink.flush, sink)

end Sink

end WordMachine
