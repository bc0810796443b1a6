import OmocNode.DictIteration
import OmocNode.PyFloat

/-! The addresses the node answers to. A loop looks up the hosts of the selected
oracles and forgets the addresses that it has not come across for a while. -/

namespace OmocNode

/-- What `parse_url` raises. -/
inductive UrlError
  | locationParseError
  | other (err : PyError)

/-- What `gethostbyname_ex` raises. A name that cannot be encoded is not a `socket.error`. -/
inductive ResolveError
  | socketError
  | other (err : PyError)

/-- What a round makes of the `internetName` of a selected oracle: the host of
the URL, and the addresses it has, should it be asked for them. -/
structure Lookup where
  parsed : Except UrlError (Option String)
  ipAddresses : Except ResolveError (List String)

structure IpFilterLoop where
  validIps : Dict String PyFloat

namespace IpFilterLoop

abbrev LoopM := EStateM PyError IpFilterLoop

def refresh (now : PyFloat) (oracle : Lookup) : LoopM Unit :=
  match oracle.parsed with
  | .error .locationParseError | .error (.other .valueError) | .error (.other .typeError) => pure ()
  | .error (.other err) => throw err
  | .ok host =>
    -- The host is missing or empty.
    if host.getD "" = "" then pure ()
    else
      match oracle.ipAddresses with
      | .ok ips => ips.forM fun ip => modify fun loop => { loop with validIps := loop.validIps.set ip now }
      | .error .socketError => pure ()
      | .error (.other err) => throw err

/-- During startup the info of a coin pair may be missing. -/
def refreshAll (now : PyFloat) : Option (List Lookup) → LoopM Unit
  | none => pure ()
  | some selectedOracles => selectedOracles.forM (refresh now)

def expired (now : PyFloat) (oracleBlockchainInfoInterval : Int) (stamp : PyFloat) : Bool :=
  (now.sub stamp).gtInt (oracleBlockchainInfoInterval * 2)

def purge (now : PyFloat) (oracleBlockchainInfoInterval : Int) (ip : String) : LoopM Unit := do
  match (← get).validIps.get? ip with
  | none => throw .keyError
  | some stamp =>
    if expired now oracleBlockchainInfoInterval stamp then
      modify fun loop => { loop with validIps := loop.validIps.erase ip }

def run (now : PyFloat) (oracleBlockchainInfoInterval : Int) (info : List (Option (List Lookup))) : LoopM Int := do
  info.forM (refreshAll now)
  Dict.forKeys IpFilterLoop.validIps (purge now oracleBlockchainInfoInterval)
  return oracleBlockchainInfoInterval

def isValidIp (loop : IpFilterLoop) (ip : String) : Bool := loop.validIps.keys.contains ip

end IpFilterLoop
end OmocNode
