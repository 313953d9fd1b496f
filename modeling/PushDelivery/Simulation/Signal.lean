import PushDelivery.Client.Connection

namespace PushDelivery

inductive GatewayAnswer where
  | reply (r : Reply)
  | reset (code : Nat)
deriving DecidableEq, Repr

namespace GatewayAnswer

/-- The code with which a stream is reset that breaks the rules. -/
def protocolErrorCode : Nat := 1

def connectionFields : List String :=
  ["connection", "transfer-encoding", "upgrade", "keep-alive", "proxy-connection"]

def isMalformed (r : Reply) : Bool :=
  connectionFields.any (fun name => (r.headers.first? name).isSome) ||
    (r.headers.first? "te").any fun value => value != "trailers"

def isInformational (status : Nat) : Bool :=
  100 ≤ status && status < 200

/-- The length that a reply says its body has: nothing if it says none, and no number if what it
says cannot be read. -/
def statedLength (r : Reply) : Option (Option Nat) :=
  (r.headers.first? "content-length").map fun text =>
    if text.length ≤ 19 ∧ text.toList.all Char.isDigit then
      some (text.toList.foldl (fun n c => n * 10 + (c.toNat - '0'.toNat)) 0)
    else none

/-- Whether the length of a reply's body is the stated one. A reply that has no body anyway may
state the length that it would have. -/
def isLengthRight (r : Reply) : Bool :=
  match statedLength r with
  | none => true
  | some none => false
  | some (some n) => n == r.body.length || (r.body.isEmpty && (r.status == 204 || r.status == 304))

/-- How an answer ends its stream. A stream whose reply breaks the rules is reset. There is no
result when an informational reply is followed by a body, which breaks the connection. -/
def result? : GatewayAnswer → Option StreamResult
  | reset code => some (.reset code)
  | reply r =>
    if isMalformed r then some (.reset protocolErrorCode)
    else if isInformational r.status then
      if r.body.isEmpty || statedLength r == some none then some (.reset protocolErrorCode)
      else none
    else some (if isLengthRight r then .reply r else .reset protocolErrorCode)

end GatewayAnswer

structure Arrival where
  stream : Nat
  request : Request
  payload : String
deriving DecidableEq, Repr

structure GoAway where
  last : Nat
  code : Nat
deriving DecidableEq, Repr

namespace GoAway

def reason (code : Nat) : String :=
  (["not a result of an error", "unspecific protocol error detected",
    "unexpected internal error encountered", "flow-control protocol violated",
    "settings ACK not received in timely manner", "received frame when stream half-closed",
    "frame with invalid size", "refused stream before processing any application logic",
    "stream no longer needed", "unable to maintain the header compression state",
    "connection established in response to a CONNECT request was reset or abnormally closed",
    "detected excessive load generating behavior",
    "security properties do not meet minimum requirements",
    "endpoint requires HTTP/1.1"][code]?).getD "unknown reason"

/-- The last stream; an id has 31 bits, and the one before them means nothing. -/
def lastStream (g : GoAway) : Nat :=
  g.last % 2147483648

end GoAway

inductive Signal where
  | answer (stream : Nat) (a : GatewayAnswer)
  | goAway (g : GoAway)
  /-- Something that breaks the rules of the connection. -/
  | fault
  /-- The gateway has closed its end. -/
  | hangUp
deriving DecidableEq, Repr

end PushDelivery
