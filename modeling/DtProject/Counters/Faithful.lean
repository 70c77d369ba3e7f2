import DtProject.Platform.Reference
import DtProject.Production.Delivery

/-! # Counters through decoding

The counters of a decoded event are numeric JSON fields converted to 32-bit
integers without a range check. A counter is delivered faithfully, converted in
range to the truncation of its numeral, exactly when that truncation fits and
storing the numeral as a double has not carried it to another integer.
-/

namespace DtProject

open Numeric

variable {P : Platform} {root : P.Object} {m field event : String} {b : Broadcast} {n : ℤ}

/-- The counters that a broadcast carries, each with the JSON field it is decoded from. -/
def Broadcast.counters : Broadcast → List (String × Int32)
  | .onBodyCompleted evt => [("total_bodies_completed", evt.totalBodiesCompleted)]
  | .onVisionSummaryUpdated evt =>
    [("total_inspections", evt.totalInspections), ("pass_count", evt.passCount),
      ("fail_count", evt.failCount)]
  | _ => []

def counterFields (event : String) : List String :=
  if equalsIgnoreCase event "oee_update" then []
  else if equalsIgnoreCase event "body_completed" then ["total_bodies_completed"]
  else if equalsIgnoreCase event "vision_summary" then
    ["total_inspections", "pass_count", "fail_count"]
  else []

/-- The delivered value is the truncation of the field's numeral, converted in range. -/
def Faithful (P : Platform) (root : P.Object) (field : String) (delivered : Int32) : Prop :=
  ∀ x ∈ P.numericField root field,
    (P.numberField root field 0).ConvertsToInt32 ∧ delivered.toInt = truncate x

/-- The truncation of the field's numeral fits, and its double has not carried it further. -/
def Fits (P : Platform) (root : P.Object) (field : String) : Prop :=
  ∀ x ∈ P.numericField root field,
    InInt32 (truncate x) ∧ ¬ (P.numberField root field 0).Carries x

theorem numberField_between (hP : P.StoresNumbers) {x : ℚ} {stored : Double}
    (hx : P.numericField root field = some x) :
    (P.numberField root field stored).Between (2 ^ 53) x := by
  obtain ⟨d, hd, hb⟩ := hP root field x hx
  unfold Platform.numberField
  rw [hd]
  exact hb

theorem faithful_iff_fits (hP : P.StoresNumbers) :
    Faithful P root field (P.int32 (P.numberField root field 0)) ↔ Fits P root field :=
  forall₂_congr fun _ hx =>
    (numberField_between hP hx).toInt32_eq_truncate_iff (by norm_num)

theorem fits_intCast_iff (hP : P.StoresNumbers) (hn : P.numericField root field = some (n : ℚ)) :
    Fits P root field ↔ InInt32 n := by
  unfold Fits
  rw [hn]
  constructor
  · intro h
    simpa using (h n rfl).1
  · rintro h x hx
    obtain rfl : (n : ℚ) = x := Option.some.inj hx
    refine ⟨by simpa using h, (numberField_between hP hn).not_carries ?_⟩
    exact h.abs_bound.trans (by norm_num)

theorem toInt_of_fits (hP : P.StoresNumbers) (hn : P.numericField root field = some (n : ℚ))
    (h : InInt32 n) : (P.int32 (P.numberField root field 0)).toInt = n := by
  have hf := (faithful_iff_fits hP).mpr ((fits_intCast_iff hP hn).mpr h)
  simpa using (hf n hn).2

section Messages

theorem equalsIgnoreCase_eq_false {a b : String} (ha : equalsIgnoreCase event a = true)
    (hab : equalsIgnoreCase a b = false) : equalsIgnoreCase event b = false := by
  unfold equalsIgnoreCase at *
  rwa [eq_of_beq ha]

theorem onMessage_bodyCompleted (hm : P.deserialize m = some root)
    (he : equalsIgnoreCase (P.getStringField root "event") "body_completed" = true) :
    onMessage P m = some (.onBodyCompleted (decodeBodyCompleted P root)) := by
  have hoee := equalsIgnoreCase_eq_false (b := "oee_update") he (by decide)
  simp [onMessage, hm, he, hoee]

theorem onMessage_visionSummary (hm : P.deserialize m = some root)
    (he : equalsIgnoreCase (P.getStringField root "event") "vision_summary" = true) :
    onMessage P m = some (.onVisionSummaryUpdated (decodeVisionSummary P root)) := by
  have hoee := equalsIgnoreCase_eq_false (b := "oee_update") he (by decide)
  have hbody := equalsIgnoreCase_eq_false (b := "body_completed") he (by decide)
  simp [onMessage, hm, he, hoee, hbody]

theorem onMessage_counters (hm : P.deserialize m = some root) (hb : onMessage P m = some b) :
    b.counters = (counterFields (P.getStringField root "event")).map
      fun field => (field, P.int32 (P.numberField root field 0)) := by
  unfold onMessage at hb
  rw [hm] at hb
  dsimp only at hb
  unfold counterFields
  split_ifs at hb ⊢ <;> obtain rfl := Option.some.inj hb <;> rfl

theorem counters_faithful_iff_fits (hP : P.StoresNumbers) (hm : P.deserialize m = some root)
    (hb : onMessage P m = some b) :
    (∀ p ∈ b.counters, Faithful P root p.1 p.2) ↔
      ∀ field ∈ counterFields (P.getStringField root "event"), Fits P root field := by
  rw [onMessage_counters hm hb, List.forall_mem_map]
  exact forall₂_congr fun _ _ => faithful_iff_fits hP

theorem inspections_add_up (hP : P.StoresNumbers) {t p f : ℤ}
    (ht : P.numericField root "total_inspections" = some (t : ℚ))
    (hp : P.numericField root "pass_count" = some (p : ℚ))
    (hf : P.numericField root "fail_count" = some (f : ℚ)) (hsum : p + f = t)
    (hit : InInt32 t) (hip : InInt32 p) (hif : InInt32 f) :
    (decodeVisionSummary P root).passCount.toInt + (decodeVisionSummary P root).failCount.toInt =
      (decodeVisionSummary P root).totalInspections.toInt := by
  have hpass : (decodeVisionSummary P root).passCount.toInt = p := toInt_of_fits hP hp hip
  have hfail : (decodeVisionSummary P root).failCount.toInt = f := toInt_of_fits hP hf hif
  have htotal : (decodeVisionSummary P root).totalInspections.toInt = t := toInt_of_fits hP ht hit
  omega

end Messages

section Totals

def Broadcast.bodyTotal : Broadcast → Option Int32
  | .onBodyCompleted evt => some evt.totalBodiesCompleted
  | _ => none

def deliveredTotals (P : Platform) (messages : List String) : List Int32 :=
  (messages.filterMap (onMessage P)).filterMap Broadcast.bodyTotal

/-- Along a run the body totals broadcast are those of the messages delivered. -/
theorem deliveredTotals_run {C : Reactive.Contract World Event} {url : String} {es : List Event}
    {w : World} (h : Reactive.Run (step P) C (start url) es w) :
    w.updates.reverse.filterMap Broadcast.bodyTotal =
      deliveredTotals P (es.filterMap Event.message) := by
  rw [updates_run h]
  rfl

def ReportsTotal (P : Platform) (m : String) (total : ℤ) : Prop :=
  ∃ root, P.deserialize m = some root ∧
    equalsIgnoreCase (P.getStringField root "event") "body_completed" = true ∧
    P.numericField root "total_bodies_completed" = some (total : ℚ)

theorem deliveredTotals_eq (hP : P.StoresNumbers) {messages : List String} {totals : List ℤ}
    (h : List.Forall₂ (ReportsTotal P) messages totals) (hin : ∀ n ∈ totals, InInt32 n) :
    (deliveredTotals P messages).map Int32.toInt = totals := by
  induction h with
  | nil => rfl
  | @cons m n ms ns hmn _ ih =>
    obtain ⟨root, hm, he, hn⟩ := hmn
    have hhead : (decodeBodyCompleted P root).totalBodiesCompleted.toInt = n :=
      toInt_of_fits hP hn (hin n List.mem_cons_self)
    have htail := ih fun k hk => hin k (List.mem_cons_of_mem n hk)
    rw [deliveredTotals, List.filterMap_cons_some (onMessage_bodyCompleted hm he)]
    change (decodeBodyCompleted P root).totalBodiesCompleted.toInt ::
      (deliveredTotals P ms).map Int32.toInt = n :: ns
    rw [hhead, htail]

end Totals

/-- Counters survive decoding exactly when their numerals fit. Then integer inspection counts
that add up still do when delivered, and non-decreasing body totals are delivered so. -/
theorem counters_uncorrupted_iff (hP : P.StoresNumbers) :
    (∀ m root b, P.deserialize m = some root → onMessage P m = some b →
      ((∀ p ∈ b.counters, Faithful P root p.1 p.2) ↔
        ∀ field ∈ counterFields (P.getStringField root "event"), Fits P root field)) ∧
    (∀ m root, ∀ t p f : ℤ, P.deserialize m = some root →
      equalsIgnoreCase (P.getStringField root "event") "vision_summary" = true →
      P.numericField root "total_inspections" = some (t : ℚ) →
      P.numericField root "pass_count" = some (p : ℚ) →
      P.numericField root "fail_count" = some (f : ℚ) → p + f = t →
      InInt32 t → InInt32 p → InInt32 f →
      ∃ evt, onMessage P m = some (.onVisionSummaryUpdated evt) ∧
        evt.passCount.toInt + evt.failCount.toInt = evt.totalInspections.toInt) ∧
    ∀ messages totals, List.Forall₂ (ReportsTotal P) messages totals →
      (∀ n ∈ totals, InInt32 n) → totals.Pairwise (· ≤ ·) →
      (deliveredTotals P messages).Pairwise fun a b => a.toInt ≤ b.toInt := by
  refine ⟨fun m root b => counters_faithful_iff_fits hP, ?_, ?_⟩
  · intro m root t p f hm he ht hp hf hsum hit hip hif
    refine ⟨_, onMessage_visionSummary hm he, ?_⟩
    exact inspections_add_up hP ht hp hf hsum hit hip hif
  · intro messages totals h hin hle
    rw [← List.pairwise_map (f := Int32.toInt) (R := (· ≤ ·)), deliveredTotals_eq hP h hin]
    exact hle

def tenInspections : String × FJsonObject :=
  ("\x7b\"event\":\"vision_summary\",\"total_inspections\":10,\"pass_count\":7," ++
      "\"fail_count\":3\x7d",
    [("event", .string "vision_summary"), ("total_inspections", .number (10 : ℤ)),
      ("pass_count", .number (7 : ℤ)), ("fail_count", .number (3 : ℤ))])

theorem counters_uncorrupted_iff_tenInspections :
    ∃ evt, onMessage (referencePlatform [tenInspections]) tenInspections.1 =
        some (.onVisionSummaryUpdated evt) ∧
      evt.passCount.toInt + evt.failCount.toInt = evt.totalInspections.toInt :=
  (counters_uncorrupted_iff (referencePlatform_storesNumbers [tenInspections])).2.1 _ _ 10 7 3
    rfl rfl rfl rfl rfl rfl (by decide) (by decide) (by decide)

def largeTotal : String × FJsonObject :=
  ("\x7b\"event\":\"body_completed\",\"total_bodies_completed\":2147483648\x7d",
    [("event", .string "body_completed"), ("total_bodies_completed", .number (2147483648 : ℤ))])

/-- The total `2 ^ 31` is out of range and is delivered all the same. -/
theorem largeTotal_corrupted :
    ¬ ∀ m root b, (referencePlatform [largeTotal]).deserialize m = some root →
      onMessage (referencePlatform [largeTotal]) m = some b →
      ∀ p ∈ b.counters, Faithful (referencePlatform [largeTotal]) root p.1 p.2 := by
  intro h
  have hP := referencePlatform_storesNumbers [largeTotal]
  have hn : (referencePlatform [largeTotal]).numericField largeTotal.2 "total_bodies_completed" =
      some ((2147483648 : ℤ) : ℚ) := rfl
  have hm : (referencePlatform [largeTotal]).deserialize largeTotal.1 = some largeTotal.2 := rfl
  have hf := h _ _ _ hm (onMessage_bodyCompleted hm rfl) _ List.mem_cons_self
  have hfit := (fits_intCast_iff hP hn).mp ((faithful_iff_fits hP).mp hf)
  exact absurd hfit (by decide)

end DtProject
