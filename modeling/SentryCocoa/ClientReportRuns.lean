import Mathlib.Algebra.BigOperators.Group.List.Basic
import Mathlib.Data.Nat.ModEq
import SentryCocoa.ClientReports
import SentryCocoa.Library.Machine

/-! What the client reports say about the losses that were recorded. A loss that is
recorded again counts as one, whatever its quantity, so the sum is right only as long
as the later quantities make up their number. -/
namespace SentryCocoa.ClientReports
open SentryCocoa.Foundation SentryCocoa.DataCategory SentryCocoa.FileManager
open SentryCocoa.Library.Machine

structure LostEvent where
  category : SentryDataCategory
  reason : SentryDiscardReason
  quantity : UInt64

/-- The calls of the transport. What the rate limit drops from an envelope is recorded
before, each item by a call of its own; the items here are those that are left. -/
inductive Call where
  | recordLostEvent (category : SentryDataCategory) (reason : SentryDiscardReason)
  | recordLostEventQuantity (lost : LostEvent)
  | sendEnvelope (items : List EnvelopeItem) (timestamp : NSDate)

/-- The counters, what was recorded since the last report, and the reports, each with what
was recorded before it and after the one before. -/
structure Accounting where
  discardedEvents : DiscardedEvents
  recorded : List LostEvent
  reports : List (SentryClientReport × List LostEvent)

def Accounting.record (accounting : Accounting) (lost : LostEvent) : Accounting :=
  { accounting with
    discardedEvents := recordLostEventQuantity true lost.category lost.reason lost.quantity
      accounting.discardedEvents
    recorded := accounting.recorded ++ [lost] }

def Accounting.step (accounting : Accounting) (call : Call) : Option Accounting :=
  match call with
  | .recordLostEvent category reason => some (accounting.record ⟨category, reason, 1⟩)
  | .recordLostEventQuantity lost => some (accounting.record lost)
  | .sendEnvelope items timestamp =>
    if items.length = 0 then some accounting
    else match takeClientReport true timestamp accounting.discardedEvents with
      | (none, _) => some accounting
      | (some report, discardedEvents) => some
        { discardedEvents := discardedEvents
          recorded := []
          reports := accounting.reports ++ [(report, accounting.recorded)] }

def quantities (recorded : List LostEvent) (category : SentryDataCategory)
    (reason : SentryDiscardReason) : List UInt64 :=
  (recorded.filter fun lost => lost.category = category ∧ lost.reason = reason).map
    LostEvent.quantity

def total (quantities : List UInt64) : Nat := (quantities.map UInt64.toNat).sum

/-- One entry for every pair that was recorded, with the sum of its quantities. -/
def ReportExact (report : SentryClientReport) (recorded : List LostEvent) : Prop :=
  ∀ category reason,
    (report.discardedEvents.filter fun event =>
      event.category = category ∧ event.reason = reason).map (fun event => event.quantity.toNat) =
    if (quantities recorded category reason).length = 0 then []
    else [total (quantities recorded category reason)]

def Accounting.Exact (accounting : Accounting) : Prop :=
  ∀ report ∈ accounting.reports, ReportExact report.1 report.2

/-- The quantities after the first add up to their number, and the sum fits. -/
def Counted : List UInt64 → Prop
  | [] => True
  | quantity :: later =>
    total later ≡ later.length [MOD 2 ^ 64] ∧ quantity.toNat + total later < 2 ^ 64

/-- An envelope that is sent finds nothing recorded that the counters got wrong. -/
def CountedBefore (accounting : Accounting) : Call → Prop
  | .sendEnvelope items _ => items.length ≠ 0 → ∀ category reason,
    Counted (quantities accounting.recorded category reason)
  | _ => True

/-! The counters. -/

/-- The event that the counters hold for these quantities. -/
def counted (category : SentryDataCategory) (reason : SentryDiscardReason) :
    List UInt64 → Option SentryDiscardedEvent
  | [] => none
  | quantity :: later => some ⟨reason, category, quantity + UInt64.ofNat later.length⟩

structure Accounting.Inv (accounting : Accounting) : Prop where
  lookup : ∀ category reason,
    accounting.discardedEvents.objectForKey (discardedEventKey category reason) =
      counted category reason (quantities accounting.recorded category reason)
  keys : ∀ entry ∈ accounting.discardedEvents.entries,
    entry.1 = discardedEventKey entry.2.category entry.2.reason
  exact : accounting.Exact

theorem quantities_concat (recorded : List LostEvent) (lost : LostEvent)
    (category : SentryDataCategory) (reason : SentryDiscardReason) :
    quantities (recorded ++ [lost]) category reason =
      if lost.category = category ∧ lost.reason = reason then
        quantities recorded category reason ++ [lost.quantity]
      else quantities recorded category reason := by
  unfold quantities
  by_cases h : lost.category = category ∧ lost.reason = reason
  · simp [h]
  · simp [h]

theorem counted_concat (category : SentryDataCategory) (reason : SentryDiscardReason)
    (quantities : List UInt64) (quantity : UInt64) :
    counted category reason (quantities ++ [quantity]) =
      some ⟨reason, category, (counted category reason quantities).elim quantity
        fun event => event.quantity + 1⟩ := by
  cases quantities with
  | nil => simp [counted]
  | cons first later =>
    simp only [counted, List.cons_append, List.length_append, List.length_singleton,
      Option.elim_some]
    rw [UInt64.ofNat_add, ← UInt64.add_assoc]
    rfl

theorem Accounting.Inv.record {accounting : Accounting} (inv : accounting.Inv)
    (lost : LostEvent) : (accounting.record lost).Inv := by
  have hinsert : (accounting.record lost).discardedEvents =
      accounting.discardedEvents.insert (discardedEventKey lost.category lost.reason)
        ⟨lost.reason, lost.category,
          (counted lost.category lost.reason
            (quantities accounting.recorded lost.category lost.reason)).elim lost.quantity
            fun event => event.quantity + 1⟩ := by
    unfold Accounting.record recordLostEventQuantity
    dsimp only
    rw [if_neg (by decide), inv.lookup]
    cases counted lost.category lost.reason
      (quantities accounting.recorded lost.category lost.reason) <;> rfl
  constructor
  · intro category reason
    change _ = counted category reason (quantities (accounting.recorded ++ [lost]) category reason)
    rw [hinsert, objectForKey_insert, quantities_concat]
    by_cases h : lost.category = category ∧ lost.reason = reason
    · obtain ⟨rfl, rfl⟩ := h
      rw [if_pos rfl, if_pos ⟨rfl, rfl⟩, counted_concat]
    · rw [if_neg h, if_neg, inv.lookup]
      intro hkey
      obtain ⟨hcategory, hreason⟩ := discardedEventKey_inj hkey
      exact h ⟨hcategory.symm, hreason.symm⟩
  · intro entry hentry
    rw [hinsert, AList.entries_insert] at hentry
    rcases List.mem_cons.mp hentry with rfl | hother
    · rfl
    · exact inv.keys entry ((List.kerase_sublist _ _).subset hother)
  · exact inv.exact

/-! The report. -/

/-- The values that belong to one key are the one that is stored under it. -/
theorem filter_values_eq {entries : List (Sigma fun _ : String => SentryDiscardedEvent)}
    (nodup : entries.NodupKeys) {key : String} {p : SentryDiscardedEvent → Bool}
    (hp : ∀ entry ∈ entries, p entry.2 = true ↔ entry.1 = key) :
    (entries.map Sigma.snd).filter p = (entries.dlookup key).toList := by
  induction entries with
  | nil => rfl
  | cons entry entries ih =>
    have hnodup := List.nodupKeys_cons.mp nodup
    have hrest := ih hnodup.2 fun other hother => hp other (List.mem_cons_of_mem entry hother)
    obtain ⟨key', value⟩ := entry
    have hhead := hp ⟨key', value⟩ List.mem_cons_self
    by_cases heq : key' = key
    · subst heq
      have hnone : entries.dlookup key' = none := by
        rw [List.dlookup_eq_none]
        exact hnodup.1
      rw [List.map_cons, List.filter_cons_of_pos (hhead.mpr rfl), hrest, hnone,
        List.dlookup_cons_eq]
      rfl
    · rw [List.map_cons, List.filter_cons_of_neg (fun h => heq (hhead.mp h)), hrest,
        List.dlookup_cons_ne entries ⟨key', value⟩ (Ne.symm heq)]

theorem Accounting.Inv.filter_eq {accounting : Accounting} (inv : accounting.Inv)
    (category : SentryDataCategory) (reason : SentryDiscardReason) :
    ((accounting.discardedEvents.entries.map Sigma.snd).filter fun event =>
        event.category = category ∧ event.reason = reason) =
      (counted category reason (quantities accounting.recorded category reason)).toList := by
  rw [← inv.lookup]
  apply filter_values_eq accounting.discardedEvents.nodupKeys
  intro entry hentry
  rw [inv.keys entry hentry, decide_eq_true_eq]
  constructor
  · rintro ⟨rfl, rfl⟩
    rfl
  · exact fun hkey => discardedEventKey_inj hkey

/-- The counter is right exactly when the later quantities make up their number. -/
theorem counted_exact_iff (category : SentryDataCategory) (reason : SentryDiscardReason)
    (quantities : List UInt64) :
    (counted category reason quantities).toList.map (fun event => event.quantity.toNat) =
        (if quantities.length = 0 then [] else [total quantities]) ↔ Counted quantities := by
  cases quantities with
  | nil => exact ⟨fun _ => trivial, fun _ => rfl⟩
  | cons quantity later =>
    have htotal : total (quantity :: later) = quantity.toNat + total later := by simp [total]
    have hquantity := quantity.toNat_lt
    simp only [counted, Option.toList_some, List.map_singleton, List.length_cons,
      Nat.add_eq_zero_iff, one_ne_zero, and_false, if_false, List.cons.injEq, and_true, htotal,
      Counted, UInt64.toNat_add, UInt64.toNat_ofNat', Nat.ModEq]
    omega

theorem reportExact_iff {accounting : Accounting} (inv : accounting.Inv) (timestamp : NSDate) :
    ReportExact ⟨timestamp, accounting.discardedEvents.entries.map Sigma.snd⟩
        accounting.recorded ↔
      ∀ category reason, Counted (quantities accounting.recorded category reason) := by
  unfold ReportExact
  apply forall_congr'
  intro category
  apply forall_congr'
  intro reason
  rw [inv.filter_eq]
  exact counted_exact_iff category reason _

/-! Runs. -/

namespace Accounting

def start : Accounting := ⟨∅, [], []⟩

/-- A send attaches a report with all counters, or there is nothing to report. -/
theorem step_sendEnvelope (accounting : Accounting) {items : List EnvelopeItem}
    (hitems : items.length ≠ 0) (timestamp : NSDate) :
    (accounting.discardedEvents.entries = [] ∧
      accounting.step (.sendEnvelope items timestamp) = some accounting) ∨
    accounting.step (.sendEnvelope items timestamp) = some
      { discardedEvents := ∅
        recorded := []
        reports := accounting.reports ++
          [(⟨timestamp, accounting.discardedEvents.entries.map Sigma.snd⟩,
            accounting.recorded)] } := by
  unfold step takeClientReport NSDictionary.count
  dsimp only
  rw [if_neg hitems, if_neg (by decide)]
  by_cases hcount : accounting.discardedEvents.entries.length = 0
  · rw [if_pos hcount]
    exact Or.inl ⟨List.length_eq_zero_iff.mp hcount, rfl⟩
  · rw [if_neg hcount]
    exact Or.inr rfl

theorem Inv.start : start.Inv where
  lookup := fun _ _ => rfl
  keys := fun _ hentry => by cases hentry
  exact := fun _ hreport => by cases hreport

/-- Without counters nothing was recorded. -/
theorem Inv.counted_of_empty {accounting : Accounting} (inv : accounting.Inv)
    (hempty : accounting.discardedEvents.entries = []) (category : SentryDataCategory)
    (reason : SentryDiscardReason) :
    Counted (quantities accounting.recorded category reason) := by
  have hfilter := inv.filter_eq category reason
  rw [hempty] at hfilter
  cases hquantities : quantities accounting.recorded category reason with
  | nil => trivial
  | cons quantity later =>
    rw [hquantities] at hfilter
    cases hfilter

theorem exact_append (accounting : Accounting) (report : SentryClientReport) :
    (∀ pair ∈ accounting.reports ++ [(report, accounting.recorded)], ReportExact pair.1 pair.2) ↔
      accounting.Exact ∧ ReportExact report accounting.recorded := by
  rw [List.forall_mem_append, List.forall_mem_singleton]
  rfl

theorem Inv.step {accounting accounting' : Accounting} {call : Call} (inv : accounting.Inv)
    (ok : CountedBefore accounting call) (h : accounting.step call = some accounting') :
    accounting'.Inv := by
  cases call with
  | recordLostEvent category reason =>
    cases h
    exact inv.record _
  | recordLostEventQuantity lost =>
    cases h
    exact inv.record lost
  | sendEnvelope items timestamp =>
    by_cases hitems : items.length = 0
    · rw [Accounting.step, if_pos hitems] at h
      cases h
      exact inv
    · rcases step_sendEnvelope accounting hitems timestamp with ⟨-, hsame⟩ | hreport
      · rw [hsame] at h
        cases h
        exact inv
      · rw [hreport] at h
        cases h
        constructor
        · exact fun _ _ => rfl
        · exact fun _ hentry => by cases hentry
        · exact (exact_append accounting _).mpr
            ⟨inv.exact, (reportExact_iff inv timestamp).mpr (ok hitems)⟩

theorem Inv.not_exact {accounting accounting' : Accounting} {call : Call} (inv : accounting.Inv)
    (hno : ¬CountedBefore accounting call) (h : accounting.step call = some accounting') :
    ¬accounting'.Exact := by
  cases call with
  | recordLostEvent category reason => exact absurd trivial hno
  | recordLostEventQuantity lost => exact absurd trivial hno
  | sendEnvelope items timestamp =>
    unfold CountedBefore at hno
    push Not at hno
    obtain ⟨hitems, category, reason, hcounted⟩ := hno
    rcases step_sendEnvelope accounting hitems timestamp with ⟨hempty, -⟩ | hreport
    · exact absurd (inv.counted_of_empty hempty category reason) hcounted
    · rw [hreport] at h
      cases h
      intro hexact
      have hlast := ((exact_append accounting _).mp hexact).2
      exact hcounted ((reportExact_iff inv timestamp).mp hlast category reason)

/-- The reports of a run say what was lost, exactly when each of them finds only counters
whose later quantities make up their number. -/
theorem always_exact_iff (calls : List Call) :
    Always step Exact start calls ↔ Allowed step CountedBefore start calls :=
  always_iff_allowed (fun _ inv => inv.exact) (fun _ _ _ inv ok h => inv.step ok h)
    (fun _ _ _ inv hno h => inv.not_exact hno h) Inv.start calls

/-- Two transactions of three and five spans count as four spans. -/
theorem later_spans_count_as_one :
    ¬ Always step Exact start
      [.recordLostEventQuantity ⟨.span, .sampleRate, 3⟩,
        .recordLostEventQuantity ⟨.span, .sampleRate, 5⟩,
        .sendEnvelope [.other .event []] ⟨0⟩] := by
  intro h
  have hexact := h.exec rfl
  have hreport := hexact _ (List.mem_singleton_self _) .span .sampleRate
  exact absurd hreport (by decide)

end Accounting

end SentryCocoa.ClientReports
