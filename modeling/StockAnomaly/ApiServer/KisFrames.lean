import StockAnomaly.ApiServer.KisMessages
import StockAnomaly.Theory.JavaTime

/-!
# Frames with several trades

A trade message is `flag|tr_id|count|data`, and its data the fields of `count` records one after
the other. `parseAndPublish` never reads the count and publishes one tick, from the first
record, if `split` leaves enough fields: **`published_iff`**.
-/

namespace StockAnomaly.ApiServer

open StockAnomaly.Theory

/-- A message in the format of `H0STCNT0`, with at least one record. -/
structure KisFrame where
  flag : String
  trId : String
  count : String
  /-- The number of fields of a record. -/
  m : ℕ
  records : List (List String)
  flag_digit : flag = "0" ∨ flag = "1"
  trId_free : '|' ∉ trId.toList
  counted : JavaTime.digits count.toList = some records.length
  some_record : records ≠ []
  long : 13 < m
  width : ∀ record ∈ records, record.length = m
  free : ∀ record ∈ records, ∀ field ∈ record, '|' ∉ field.toList ∧ '^' ∉ field.toList

/-- What a tick says of a trade: the ticker, the price and the accumulated volume. -/
structure Trade where
  ticker : String
  price : String
  volume : String
deriving DecidableEq

def StockTick.trade (tick : StockTick) : Trade := ⟨tick.ticker, tick.price, tick.volume⟩

namespace KisFrame

def data (frame : KisFrame) : String := String.intercalate "^" frame.records.flatten

def payload (frame : KisFrame) : String := String.intercalate "|" [frame.flag, frame.trId, frame.count, frame.data]

/-- The trades of the records. -/
def trades (frame : KisFrame) : List Trade :=
  frame.records.map fun record => ⟨record.getD 0 "", record.getD 2 "", record.getD 13 ""⟩

/-- One record, in which the accumulated volume or a field after it is not empty. -/
def Single (frame : KisFrame) : Prop :=
  ∃ record, frame.records = [record] ∧ ∃ field ∈ record.drop 13, field ≠ ""

/-- What `split` leaves of the fields. -/
def dataParts (frame : KisFrame) : List String := frame.records.flatten.rdropWhile (· = "")

variable (frame : KisFrame)

theorem two_fields : 2 ≤ frame.records.flatten.length := by
  obtain ⟨record, rest, split⟩ := List.exists_cons_of_ne_nil frame.some_record
  have width := frame.width record (by simp [split])
  have long := frame.long
  rw [split, List.flatten_cons, List.length_append]
  omega

theorem data_ne_empty : frame.data ≠ "" := by
  intro empty
  match fields : frame.records.flatten, frame.two_fields with
  | first :: second :: rest, _ =>
    have separated := @JavaString.mem_join '^' "^" rfl first second rest
    rw [← fields, ← data, empty] at separated
    exact List.not_mem_nil separated

theorem field_free {field : String} (mem : field ∈ frame.records.flatten) :
    '|' ∉ field.toList ∧ '^' ∉ field.toList := by
  obtain ⟨record, record_mem, field_mem⟩ := List.mem_flatten.1 mem
  exact frame.free record record_mem field field_mem

theorem split_data : JavaString.split '^' frame.data = frame.dataParts :=
  JavaString.split_join rfl frame.two_fields fun _ mem => (frame.field_free mem).2

theorem split_payload :
    JavaString.split '|' frame.payload = [frame.flag, frame.trId, frame.count, frame.data] := by
  have flag : '|' ∉ frame.flag.toList := by
    obtain digit | digit := frame.flag_digit <;> rw [digit] <;> decide
  have count : '|' ∉ frame.count.toList := fun mem =>
    absurd (JavaTime.isDigit_of_digits frame.counted '|' mem) (by decide)
  have fields : '|' ∉ frame.data.toList :=
    JavaString.notMem_join (by decide) fun _ mem => (frame.field_free mem).1
  have free : ∀ part ∈ [frame.flag, frame.trId, frame.count, frame.data], '|' ∉ part.toList := by
    simp [flag, frame.trId_free, count, fields]
  rw [payload, JavaString.split_join rfl (by simp) free, List.rdropWhile_eq_self_iff]
  simp [frame.data_ne_empty]

theorem startsWith_payload :
    (JavaString.startsWith frame.payload "0" || JavaString.startsWith frame.payload "1") = true := by
  rw [payload, String.intercalate_cons_cons, String.append_assoc, Bool.or_eq_true]
  obtain digit | digit := frame.flag_digit
  · rw [digit]
    exact .inl (JavaString.startsWith_append ..)
  · rw [digit]
    exact .inr (JavaString.startsWith_append ..)

/-- The tick of a frame is that of the fields that are left. -/
theorem trade_handleTextMessage (appKey : Option AppKey) (nowMs : ℕ) :
    (KisWebSocketClient.handleTextMessage frame.payload appKey nowMs).map StockTick.trade =
      if 13 < frame.dataParts.length then
        some ⟨frame.dataParts.getD 0 "", frame.dataParts.getD 2 "", frame.dataParts.getD 13 ""⟩
      else none := by
  rw [KisWebSocketClient.handleTextMessage, if_pos frame.startsWith_payload, KisWebSocketClient.parseAndPublish,
    split_payload]
  simp only [List.length_cons, List.length_nil, List.getD_cons_succ, List.getD_cons_zero, split_data]
  rw [if_neg (by decide)]
  split_ifs <;> rfl

variable {frame}

theorem dataParts_single {record : List String} (single : frame.records = [record]) :
    frame.dataParts = record.rdropWhile (· = "") := by
  rw [dataParts, single, List.flatten_singleton]

/-- The fields that are left are the first ones of the record. -/
theorem getD_dataParts {record : List String} (single : frame.records = [record]) {i : ℕ}
    (lt : i < frame.dataParts.length) : frame.dataParts.getD i "" = record.getD i "" := by
  obtain ⟨rest, split⟩ := List.rdropWhile_prefix (fun field : String => decide (field = "")) record
  rw [← dataParts_single single] at split
  rw [← split, List.getD_eq_getElem?_getD, List.getD_eq_getElem?_getD, List.getElem?_append_left lt]

/-- A single record is long enough exactly if it goes on after its volume or ends with it. -/
theorem long_iff {record : List String} (single : frame.records = [record]) :
    13 < frame.dataParts.length ↔ ∃ field ∈ record.drop 13, field ≠ "" := by
  rw [dataParts_single single, JavaString.lt_length_rdropWhile_iff]
  simp

/-- **All trades of a frame are published exactly if it has a single record that does not end before its
volume.** -/
theorem published_iff (frame : KisFrame) (appKey : Option AppKey) (nowMs : ℕ) :
    ((KisWebSocketClient.handleTextMessage frame.payload appKey nowMs).map StockTick.trade).toList = frame.trades ↔
      frame.Single := by
  rw [trade_handleTextMessage]
  constructor
  · intro all
    obtain ⟨record, rest, records⟩ := List.exists_cons_of_ne_nil frame.some_record
    rw [trades, records, List.map_cons] at all
    split_ifs at all with long
    · obtain ⟨-, no_more⟩ := List.cons.inj all
      obtain rfl := List.map_eq_nil_iff.1 no_more.symm
      exact ⟨record, records, (long_iff records).1 long⟩
    · cases all
  · rintro ⟨record, single, some_volume⟩
    have long := (long_iff single).2 some_volume
    rw [if_pos long, trades, single, getD_dataParts single (by omega), getD_dataParts single (by omega),
      getD_dataParts single long]
    rfl

/-- Two trades of one second. -/
def twoTrades : KisFrame where
  flag := "0"
  trId := "H0STCNT0"
  count := "002"
  m := 14
  records := [["005930", "093001", "70000", "2", "500", "0.72", "1", "2", "3", "4", "5", "6", "7", "1000"],
    ["005930", "093001", "70100", "2", "600", "0.86", "1", "2", "3", "4", "5", "6", "7", "1200"]]
  flag_digit := .inl rfl
  trId_free := by decide
  counted := by decide
  some_record := by decide
  long := by decide
  width := by decide
  free := by decide

/-- Of two trades only the first one is published. -/
theorem second_trade_dropped :
    ¬ ∀ (frame : KisFrame) (appKey : Option AppKey) (nowMs : ℕ),
      ((KisWebSocketClient.handleTextMessage frame.payload appKey nowMs).map StockTick.trade).toList =
        frame.trades := by
  intro claim
  have one := @Option.length_toList_le _
    ((KisWebSocketClient.handleTextMessage twoTrades.payload none 0).map StockTick.trade)
  rw [claim twoTrades none 0] at one
  exact absurd one (by decide)

end KisFrame

end StockAnomaly.ApiServer
