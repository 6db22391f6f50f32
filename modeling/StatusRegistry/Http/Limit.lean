import StatusRegistry.Http.Message
import StatusRegistry.Text.Blank
import StatusRegistry.Text.Split

/-!
# Rate limits

Each client may make a number of requests at once and one more after every period. A limiter
remembers for each client only the time at which its next request would be due if it made them
evenly; a request that comes no earlier than the allowance before that time is admitted.

A client is known by its internet address: that of its connection, or behind a proxy the one that
the proxy tells.
-/

namespace StatusRegistry.Http

/-- How many requests a client may make at once, and the nanoseconds after which it may make one
more. -/
structure Quota where
  burst : Nat
  period : Nat
  deriving DecidableEq, Repr

namespace Quota

/-- The quota of changes: ten at once, one more every second. -/
def changes : Quota := ⟨10, 1000000000⟩

/-- The quota of reads: a hundred at once, one more every two seconds. -/
def reads : Quota := ⟨100, 2000000000⟩

/-- How much earlier than due a request may come. -/
def allowance (q : Quota) : Nat := (q.burst - 1) * q.period

end Quota

/-- The times at which the next requests of clients are due. -/
structure Limiter where
  due : List (Ip × Nat)

namespace Limiter

/-- A limiter that has seen no client. -/
def empty : Limiter := ⟨[]⟩

/-- The time at which a client's next request is due; that of an unknown client is due now. -/
def dueTime (l : Limiter) (now : Nat) (client : Ip) : Nat :=
  (l.due.lookup client).getD now

/-- Admits a request, or tells how many nanoseconds to wait. Only an admitted request counts. -/
def accept (l : Limiter) (q : Quota) (now : Nat) (client : Ip) : Except Nat Limiter :=
  let due := l.dueTime now client
  if due ≤ now + q.allowance then
    .ok ⟨(client, max due now + q.period) :: l.due.filter (·.1 ≠ client)⟩
  else .error (due - q.allowance - now)

end Limiter

/-- The first address in a comma-separated list. -/
def firstAddress (list : String) : Option Ip :=
  (splitAt ',' list.toList).findSome? fun part => Ip.parse? (String.ofList (trimBlank part))

/-- A node that a proxy names: by an address, or by a name that tells none. -/
inductive Node where
  | address (ip : Ip)
  | nameless
  deriving DecidableEq, Repr

namespace Node

/-- The node that a text names. An address stands with or without port, quotes or brackets; any
other name is the word for an unknown node or starts with an underscore. -/
def parse? (cs : List Char) : Option Node :=
  let bare := trimBoth (· = '\'') (trimBoth (· = '"') (trimBlank cs))
  let text := String.ofList bare
  if text = "unknown" || bare.head? = some '_' then some .nameless
  else
    let inner :=
      if bare.head? = some '[' && bare.getLast? = some ']' then
        Ip.parse? (String.ofList ((bare.drop 1).dropLast))
      else none
    (((Endpoint.parse? text).map Endpoint.ip).or ((Ip.parse? text).or inner)).map .address

/-- The address of a node. -/
def ip? : Node → Option Ip
  | .address ip => some ip
  | .nameless => none

end Node

/-- The pairs of one element of a forwarding header, if every part is one. -/
def elementPairs (element : List Char) : Option (List (String × List Char)) :=
  ((splitAt ';' element).map trimBlank |>.filter (!·.isEmpty)).mapM fun part =>
    let key := part.takeWhile (· ≠ '=')
    if key.length = part.length then none
    else some (String.ofList (key.map Char.toLower), part.drop (key.length + 1))

/-- Whether a forwarding header may hold a pair: the nodes at both ends of a step are named and its
protocol is one of two. Of other pairs anything may be told. -/
def isForwardingPair (pair : String × List Char) : Bool :=
  if pair.1 = "for" || pair.1 = "by" then (Node.parse? pair.2).isSome
  else if pair.1 = "proto" then pair.2 = "http".toList || pair.2 = "https".toList
  else true

/-- The first address for which a forwarding header says the request was made, if all of the header
can be read. Of repeated parts of one element the last counts. -/
def forwardedAddress (header : String) : Option Ip := do
  let elements := (splitAt ',' (trimBlank header.toList)).map trimBlank |>.filter (!·.isEmpty)
  let pairs ← elements.mapM elementPairs
  guard (pairs.all (·.all isForwardingPair))
  pairs.findSome? fun element =>
    ((element.reverse.lookup "for").bind Node.parse?).bind Node.ip?

/-- The client that a proxy tells: in its list of forwarding steps, as the real address, or in the
standard header. -/
def Request.proxiedClient? (r : Request) : Option Ip :=
  ((r.headerText? "x-forwarded-for").bind firstAddress).or
    (((r.headerText? "x-real-ip").bind Ip.parse?).or
      ((r.headerValues "forwarded").findSome? fun value =>
        (Http.headerText? value).bind forwardedAddress))

/-- The client of a request. -/
def Request.client? (r : Request) (behindProxy : Bool) : Option Ip :=
  let direct := r.peer.map Endpoint.ip
  if behindProxy then r.proxiedClient?.or direct else direct

end StatusRegistry.Http
