import StockAnomaly.Theory.JavaString

/-!
# Trade messages of KIS

`handleTextMessage` and `parseAndPublish` of `KisWebSocketClient`: a trade message of one
session becomes the `StockTick` that is published, or nothing. The exceptions they catch
cannot arise on the way to the publisher, so nothing stands for them.
-/

namespace StockAnomaly.ApiServer

open StockAnomaly.Theory

abbrev AppKey := String

structure StockTick where
  ticker : String
  price : String
  volume : String
  /-- Time of receipt. -/
  timestamp : ℤ
  /-- Holds the app key of the session. -/
  ownerEmail : Option AppKey
  changeAmount : String
  changeRate : String
  deriving DecidableEq, Repr

namespace KisWebSocketClient

/-- `nowMs` is what `System.currentTimeMillis` returns. -/
def parseAndPublish (payload : String) (appKey : Option AppKey) (nowMs : ℕ) : Option StockTick :=
  let parts := JavaString.split '|' payload
  if parts.length < 4 then none
  else
    let dataParts := JavaString.split '^' (parts.getD 3 "")
    if 13 < dataParts.length then
      let sign := dataParts.getD 3 ""
      let prdyVrss := dataParts.getD 4 ""
      let prdyCtrt := dataParts.getD 5 ""
      let negative := sign = "4" ∨ sign = "5"
      let zero := sign = "3"
      some {
        ticker := dataParts.getD 0 ""
        price := dataParts.getD 2 ""
        -- field 13 is ACML_VOL, the accumulated volume of the day
        volume := dataParts.getD 13 ""
        timestamp := nowMs
        ownerEmail := appKey
        changeAmount := if zero then "0" else (if negative then "-" else "") ++ prdyVrss
        changeRate := if zero then "0" else (if negative then "-" else "") ++ prdyCtrt }
    else none

def handleTextMessage (payload : String) (appKey : Option AppKey) (nowMs : ℕ) : Option StockTick :=
  if JavaString.startsWith payload "0" || JavaString.startsWith payload "1" then
    parseAndPublish payload appKey nowMs
  else none

/-- The session and the clock go into two fields of the tick, and nowhere else. -/
theorem handleTextMessage_eq (payload : String) (appKey : Option AppKey) (nowMs : ℕ) :
    handleTextMessage payload appKey nowMs =
      (handleTextMessage payload none 0).map fun tick =>
        { tick with timestamp := nowMs, ownerEmail := appKey } := by
  unfold handleTextMessage
  split
  case isTrue =>
    simp only [parseAndPublish, apply_ite (Option.map _), Option.map_none, Option.map_some]
  case isFalse => rfl

end KisWebSocketClient

end StockAnomaly.ApiServer
