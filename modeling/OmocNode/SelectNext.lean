import OmocNode.Decimal
import OmocNode.OracleDao
import OmocNode.Sha256

/-! The order in which the selected oracles may publish. A digest of the last
publication's block hash shuffles them, and its value draws one by stake. -/

namespace OmocNode.SelectNext

/-- `hb`, thirty-two bytes read as a big-endian number. -/
abbrev Digest := Fin (2 ^ 256)

/-- `hb[idx]`. -/
def digestByte (hb : Digest) (idx : Nat) : Except PyError Nat :=
  if idx < 32 then .ok (hb.val / 256 ^ (31 - idx) % 256) else .error .indexError

def getCappedStake (oi : FullOracleRoundInfo) : Nat := oi.stake

/-- The variables of the shuffling loop. -/
structure Shuffle where
  l1 : List FullOracleRoundInfo
  totalStake : Nat
  l2 : List FullOracleRoundInfo
  stakeBuckets : List Nat
  idx : Nat
  lastRangeLimit : Nat

def shuffleStep (hb : Digest) (s : Shuffle) : Except PyError Shuffle := do
  let byte ← digestByte hb s.idx
  let selIndex := byte % s.l1.length
  match s.l1[selIndex]? with
  | none => .error .indexError
  | some oracleItem =>
    let lastRangeLimit := s.lastRangeLimit + getCappedStake oracleItem
    return { l1 := s.l1.eraseIdx selIndex
             totalStake := s.totalStake + getCappedStake oracleItem
             l2 := s.l2 ++ [oracleItem]
             stakeBuckets := s.stakeBuckets ++ [lastRangeLimit]
             idx := s.idx + 1
             lastRangeLimit }

/-- `while len(l1) > 0`. A round takes one oracle, so the list's length bounds the rounds. -/
def shuffle (hb : Digest) : Nat → Shuffle → Except PyError Shuffle
  | 0, s => .ok s
  | rounds + 1, s => if s.l1.length > 0 then shuffleStep hb s >>= shuffle hb rounds else .ok s

def maxInt : Nat := 0xFFFFFFFFFFFFFFFFFFFFFFFFFFFFFFFFFFFFFFFFFFFFFFFFFFFFFFFFFFFFFFFF

/-- `Decimal(total_stake) * Decimal(hb) / Decimal(max_int)` in the default
context, where each of the two operations rounds to 28 digits. -/
def rndStake (totalStake : Nat) (hb : Digest) : ℚ :=
  Decimal.rounded 10 28 (Decimal.rounded 10 28 ((totalStake : ℚ) * hb.val) / maxInt)

/-- `select_next` from the point where the digest is known. -/
def selectFrom (hb : Digest) (oracleInfoList : List FullOracleRoundInfo) : Except PyError (List FullOracleRoundInfo) :=
  if oracleInfoList.length = 0 then .ok []
  else if oracleInfoList.length > 32 then
    .error (.exception "Cant have more than 32 oracles, the hash is 32 bytes long")
  else do
    let s ← shuffle hb oracleInfoList.length
      { l1 := oracleInfoList, totalStake := 0, l2 := [], stakeBuckets := [], idx := 0, lastRangeLimit := 0 }
    let idx := (s.stakeBuckets.takeWhile fun limit : Nat => (limit : ℚ) < rndStake s.totalStake hb).length
    return List.ofFn fun i : Fin s.l2.length => s.l2.get ⟨(idx + i) % s.l2.length, Nat.mod_lt _ i.pos⟩

def selectNext (lastBlockHash : Bytes) (oracleInfoList : List FullOracleRoundInfo) :
    Except PyError (List FullOracleRoundInfo) :=
  selectFrom (Sha256.digest lastBlockHash).toFin oracleInfoList

def selectNextAddresses (lastBlockHash : Bytes) (oracleInfoList : List FullOracleRoundInfo) :
    Except PyError (List String) :=
  (selectNext lastBlockHash oracleInfoList).map fun ordered => ordered.map (·.addr.text)

end OmocNode.SelectNext
