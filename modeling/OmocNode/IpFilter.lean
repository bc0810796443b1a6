import OmocNode.IpFilterLoop

/-! Who is let in. The web server passes a call on to an endpoint that signs only if
it comes from an address that the filter's loop knows. -/

namespace OmocNode.IpFilter

def openEndpoints : List String := ["/version", "/info"]

def notAuthorizedMsg : String := "The request was not made by a selected oracle."

/-- `MainLoop.is_valid_ip`. There is no loop before the main loop has started it. -/
def isValidIp (ipFilterLoop : Option IpFilterLoop) (ip : String) : Bool :=
  match ipFilterLoop with
  | none => false
  | some loop => loop.isValidIp ip

structure Call where
  client : Option String
  path : String

inductive Answer (Response : Type)
  | next (response : Response)
  | error (statusCode : Nat) (content : String)
  deriving DecidableEq

def checkClient (repr : String → String) (ipFilterLoop : Option IpFilterLoop) (call : Call) : Except String Unit :=
  match call.client with
  | none => .error "cannot unpack non-iterable NoneType object"
  | some ip =>
    if call.path ∉ openEndpoints ∧ isValidIp ipFilterLoop ip = false then .error (notAuthorizedMsg ++ " " ++ repr ip) else .ok ()

variable {Response : Type}

/-- `filter_ips_by_selected_oracles`. An exception is given by what is told of it. -/
def filterIpsBySelectedOracles (oracleRunIpFilter debug : Bool) (repr : String → String) (ipFilterLoop : Option IpFilterLoop)
    (call : Call) (callNext : Except String Response) : Except String (Answer Response) :=
  if oracleRunIpFilter then
    match checkClient repr ipFilterLoop call >>= fun () => callNext with
    | .ok response => .ok (.next response)
    | .error errorMsg => .ok (.error (if debug then 418 else 417) errorMsg)
  else callNext.map .next

structure Round where
  now : PyFloat
  oracleBlockchainInfoInterval : Int
  info : List (Option (List Lookup))

/-- The loop after some rounds. A round that raises leaves what it has changed. -/
def afterRounds (rounds : List Round) (loop : IpFilterLoop) : IpFilterLoop :=
  rounds.foldl (fun loop round =>
    Proofs.StateFrame.finalState (IpFilterLoop.run round.now round.oracleBlockchainInfoInterval round.info) loop) loop

end OmocNode.IpFilter
