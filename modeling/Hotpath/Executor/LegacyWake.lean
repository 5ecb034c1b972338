import Hotpath.Executor.Fire
import Hotpath.Protocol.RoundTrip

set_option relaxedAutoImplicit false
set_option autoImplicit false

/-!
# Wakes of older pollers

An older poller does not know the key `wire_price_yes_dollars`. Its wakes decode with the default
of that field, which is no tradeable price, so that a real fire is refused before anything is spent
on it.

## Main results

* `Hotpath.wirePrice_of_legacy` — the price such a wake decodes with.
* `Hotpath.legacy_wake_refused` — no such wake places an order.
-/

namespace Hotpath

open Utf8 (bytes)

variable {F : Type}

/-- A key that does not occur has no last value. -/
lemma lastValue_eq_none {ι V : Type} [DecidableEq ι] {f : ι} {ms : List (ι × V)}
    (h : ∀ v, (f, v) ∉ ms) : lastValue f ms = none := by
  have hfilter : ms.filter (fun p => p.1 = f) = [] := by
    rw [List.filter_eq_nil_iff]
    rintro ⟨g, v⟩ hmem hg
    obtain rfl : g = f := by simpa using hg
    exact h v hmem
  rw [lastValue, hfilter]
  rfl

section Legacy

variable [Double F] [CharConv F] {body : Bytes} {m : WakeMessage F}
  {ms : List (WakeField × Value F)}

/-- Without the key, the price is the default one. -/
lemma wirePrice_of_legacy (hok : decodeWakeMessage body = .ok m) (hdoc : WakeDocument body ms)
    (hprice : ∀ v, (WakeField.wirePriceYesDollars, v) ∉ ms) : m.wirePriceYesDollars = 0.0 := by
  have hget := get_of_decodeWakeMessage hok hdoc .wirePriceYesDollars
  rw [lastValue_eq_none hprice, Option.getD_none] at hget
  exact Value.number.inj hget

/-- A wake is no dry run if the key is absent or last says so. -/
lemma dryRun_of_document (hok : decodeWakeMessage body = .ok m) (hdoc : WakeDocument body ms)
    (hdry : lastValue .dryRun ms = none ∨ lastValue .dryRun ms = some (.flag false)) :
    m.dryRun = false := by
  have hget := get_of_decodeWakeMessage hok hdoc .dryRun
  rcases hdry with h | h <;> rw [h] at hget <;> exact Value.flag.inj hget

/-- **An older poller's wake is refused and places no order**: where the body of a frame, in any
spelling, order and repetition of its members, has no key `wire_price_yes_dollars` and asks for no
dry run, a server in any state refuses its fire for the price, dispatches nothing and changes
nothing but the counter of these refusals. Of the numbers it only matters that zero is not above
itself. -/
theorem legacy_wake_refused (hzero : (0.0 : F) ≤ 0.0) (hok : decodeWakeMessage body = .ok m)
    (hdoc : WakeDocument body ms) (hprice : ∀ v, (WakeField.wirePriceYesDollars, v) ∉ ms)
    (hdry : lastValue .dryRun ms = none ∨ lastValue .dryRun ms = some (.flag false))
    (s : ExecutorServer) (probe : Probe) :
    s.handleFire probe m = (.refusedUntradeablePrice, none,
      { s with stats := { s.stats with firesRefusedPrice := s.stats.firesRefusedPrice + 1 } }) := by
  have hwire := wirePrice_of_legacy hok hdoc hprice
  have hdryRun := dryRun_of_document hok hdoc hdry
  rw [ExecutorServer.handleFire, if_pos]
  refine ⟨by rw [hdryRun]; rfl, Or.inl ?_⟩
  rw [hwire]
  exact hzero

end Legacy

/-- The members of a wake that has the required keys only, with the values of their defaults. -/
def legacyMembers : List (WakeField × Value ℚ) :=
  WakeField.required.map fun f => (f, WakeMessage.default.get f)

/-- The text of one of their values. -/
def legacyText : Value ℚ → Bytes
  | .number _ => bytes "0"
  | v => v.written

/-- The wake with the legacy members. -/
def legacyBody : Bytes := documentText (legacyMembers.map fun p => (p.1.name, legacyText p.2))

/-- The body is a document of the legacy members. -/
private lemma legacyBody_document : WakeDocument legacyBody legacyMembers := by
  have hname : ∀ f : WakeField, PlainName f.name := by
    intro f
    cases f <;> decide
  refine document_documentText (S := wakeSchema ℚ) hname ?_
  intro p hp
  obtain ⟨f, hf, rfl⟩ := List.mem_map.mp hp
  have hzero : NumberToken (F := ℚ) (bytes "0") 0.0 := by
    refine ⟨JsonText.intNumber 0, by decide, congrArg JsonText.FromChars.value ?_⟩
    rw [JsonText.exactValue_render]
    norm_num [JsonText.Number.value, JsonText.Number.magnitude, JsonText.intNumber,
      JsonText.natValue_decimal]
  have hwritten : ∀ v : Value ℚ, legacyText v = v.written → v.Encodable →
      v.kind.Token (legacyText v) v := by
    intro v htext hv
    rw [htext]
    exact Value.token_written hv
  simp only [WakeField.required, List.mem_cons, List.not_mem_nil, or_false] at hf
  rcases hf with rfl | rfl | rfl | rfl | rfl | rfl | rfl | rfl | rfl | rfl | rfl | rfl
  all_goals first
    | exact ⟨_, hzero, rfl⟩
    | exact hwritten (.int _) rfl trivial
    | exact hwritten (.text []) rfl Utf8.valid_nil
    | exact hwritten (.direction _) rfl trivial

/-- The wake with the required keys only is refused by a new server with all callbacks set. -/
theorem legacy_wake_refused_required :
    ((ExecutorServer.new none true true).handleFire ⟨0, ⟨false, false⟩⟩
      ((wakeSchema ℚ).build legacyMembers)).1 = .refusedUntradeablePrice := by
  have hok : decodeWakeMessage legacyBody = .ok ((wakeSchema ℚ).build legacyMembers) := by
    refine decodeWakeMessage_eq_build.mpr ⟨legacyMembers, legacyBody_document, ?_, rfl⟩
    intro f hf
    exact ⟨_, List.mem_map.mpr ⟨f, hf, rfl⟩⟩
  have hprice : ∀ v, (WakeField.wirePriceYesDollars, v) ∉ legacyMembers := by
    intro v hv
    obtain ⟨f, hf, hfv⟩ := List.mem_map.mp hv
    obtain rfl : f = .wirePriceYesDollars := (Prod.mk.inj hfv).1
    exact absurd hf (by decide)
  rw [legacy_wake_refused (by norm_num) hok legacyBody_document hprice (Or.inl (by decide))]

end Hotpath
