import DtProject.Platform.Basic

/-! # Backend messages

The events that `OnMessage` decodes from the backend's JSON texts, with the
defaults of their fields, and the broadcasts that carry them to listeners.
-/

namespace DtProject

open Numeric

structure FOEEData where
  availability : Single := 0
  performance : Single := 0
  quality : Single := 0
  oee : Single := 0

structure FStationOEEEvent where
  stationId : String := ""
  bodyId : String := ""
  timestamp : String := ""
  oee : FOEEData := {}
  cycleTimeSec : Single := 0

structure FBodyCompletedEvent where
  stationId : String := ""
  bodyId : String := ""
  timestamp : String := ""
  oee : FOEEData := {}
  cycleTimeSec : Single := 0
  lineOEE : FOEEData := {}
  totalBodiesCompleted : Int32 := 0

structure FVisionSummaryEvent where
  bodyId : String := ""
  timestamp : String := ""
  visionResult : String := ""
  defectType : String := ""
  totalInspections : Int32 := 0
  passCount : Int32 := 0
  failCount : Int32 := 0
  passRate : Single := 0

/-- What the four delegates of the subsystem broadcast. -/
inductive Broadcast where
  | onConnectionChanged (bConnected : Bool) (reason : String)
  | onStationOEEUpdated (event : FStationOEEEvent)
  | onBodyCompleted (event : FBodyCompletedEvent)
  | onVisionSummaryUpdated (event : FVisionSummaryEvent)

section Decode

variable (P : Platform)

def parseOEEObject : Option P.Object → FOEEData
  | none => {}
  | some obj =>
    { availability := (P.getNumberField obj "availability").cast
      performance := (P.getNumberField obj "performance").cast
      quality := (P.getNumberField obj "quality").cast
      oee := (P.getNumberField obj "oee").cast }

def oeeField (root : P.Object) (field : String) (stored : FOEEData) : FOEEData :=
  match P.tryGetObjectField root field with
  | some obj => parseOEEObject P obj
  | none => stored

/-- The `oee_update` branch of `OnMessage`. -/
def decodeStationOEE (root : P.Object) : FStationOEEEvent :=
  let evt : FStationOEEEvent := {}
  { stationId := P.stringField root "station_id" evt.stationId
    bodyId := P.stringField root "body_id" evt.bodyId
    timestamp := P.stringField root "timestamp" evt.timestamp
    cycleTimeSec := (P.numberField root "cycle_time_sec" 0).cast
    oee := oeeField P root "oee" evt.oee }

/-- The `body_completed` branch of `OnMessage`. -/
def decodeBodyCompleted (root : P.Object) : FBodyCompletedEvent :=
  let evt : FBodyCompletedEvent := {}
  { stationId := P.stringField root "station_id" evt.stationId
    bodyId := P.stringField root "body_id" evt.bodyId
    timestamp := P.stringField root "timestamp" evt.timestamp
    cycleTimeSec := (P.numberField root "cycle_time_sec" 0).cast
    totalBodiesCompleted := P.int32 (P.numberField root "total_bodies_completed" 0)
    oee := oeeField P root "oee" evt.oee
    lineOEE := oeeField P root "line_oee" evt.lineOEE }

/-- The `vision_summary` branch of `OnMessage`. -/
def decodeVisionSummary (root : P.Object) : FVisionSummaryEvent :=
  let evt : FVisionSummaryEvent := {}
  { bodyId := P.stringField root "body_id" evt.bodyId
    timestamp := P.stringField root "timestamp" evt.timestamp
    visionResult := P.stringField root "vision_result" evt.visionResult
    defectType := P.stringField root "defect_type" evt.defectType
    totalInspections := P.int32 (P.numberField root "total_inspections" 0)
    passCount := P.int32 (P.numberField root "pass_count" 0)
    failCount := P.int32 (P.numberField root "fail_count" 0)
    passRate := (P.numberField root "pass_rate" 0).cast }

/-- Decode a message and dispatch on its event. A text that is no JSON object, or an event of
another name, broadcasts nothing. -/
def onMessage (message : String) : Option Broadcast :=
  match P.deserialize message with
  | none => none
  | some root =>
    let event := P.getStringField root "event"
    if equalsIgnoreCase event "oee_update" then
      some (.onStationOEEUpdated (decodeStationOEE P root))
    else if equalsIgnoreCase event "body_completed" then
      some (.onBodyCompleted (decodeBodyCompleted P root))
    else if equalsIgnoreCase event "vision_summary" then
      some (.onVisionSummaryUpdated (decodeVisionSummary P root))
    else none

end Decode

end DtProject
