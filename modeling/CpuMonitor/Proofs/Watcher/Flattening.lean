import CpuMonitor.Proofs.Metric.NameText
import CpuMonitor.Watcher.Report

/-!
# Measurements by text

The values of a report under the texts of their names are all of its values.

* `Measurements.flatten_perm` : the entries are those of the measurements, renamed.
* `Measurements.get?_flatten_eq_some_iff`, `Measurements.get?_flatten` : look-ups by text.
* `flatten_lossless` : no two names or keys share a text, and nothing is lost or added.
-/

set_option autoImplicit false

namespace CpuMonitor

namespace Measurements
variable (m : Measurements)

def renamed (e : MetricName × Option Binary64) : String × Option Binary64 := (e.1.text, e.2)

theorem nodup_renamed : ((m.toList.map renamed).map Prod.fst).Nodup := by
  have hnames : ((m.toList.map Prod.fst).map MetricName.text).Nodup :=
    List.pairwise_map.2 (m.nodup_keys.imp fun hne htext => hne (MetricName.text_injective htext))
  rw [List.map_map] at hnames ⊢
  exact hnames

/-- No entry takes the place of another one. -/
theorem flatten_perm : m.flatten.toList.Perm (m.toList.map renamed) := OrderedMap.toList_ofList_perm m.nodup_renamed

theorem get?_flatten_eq_some_iff {text : String} {value : Option Binary64} :
    m.flatten.get? text = some value ↔ ∃ name, name.text = text ∧ m.get? name = some value := by
  rw [← OrderedMap.mem_toList, m.flatten_perm.mem_iff, List.mem_map]
  constructor
  · rintro ⟨⟨name, value'⟩, hmem, heq⟩
    cases heq
    exact ⟨name, rfl, OrderedMap.mem_toList.1 hmem⟩
  · rintro ⟨name, rfl, hget⟩
    exact ⟨(name, value), OrderedMap.mem_toList.2 hget, rfl⟩

theorem get?_flatten (name : MetricName) : m.flatten.get? name.text = m.get? name := by
  refine Option.ext fun value => (m.get?_flatten_eq_some_iff).trans ⟨?_, fun h => ⟨name, rfl, h⟩⟩
  rintro ⟨name', htext, h⟩
  rw [← MetricName.text_injective htext]
  exact h

theorem size_flatten : m.flatten.size = m.size := by
  rw [OrderedMap.size, m.flatten_perm.length_eq, List.length_map]
  rfl

end Measurements

/-- **Nothing is lost by text.** Each name has its value under its text, and no other text has one. -/
theorem flatten_lossless :
    (∀ a b : MetricName, a.text = b.text ↔ a = b) ∧ (∀ a b : MetricKey, a.text = b.text ↔ a = b) ∧
    ∀ m : Measurements, m.flatten.size = m.size ∧ (∀ name, m.flatten.get? name.text = m.get? name) ∧
      ∀ text value, m.flatten.get? text = some value ↔ ∃ name, name.text = text ∧ m.get? name = some value := by
  refine ⟨fun a b => ⟨MetricName.text_injective, congrArg _⟩, fun a b => ⟨MetricKey.text_injective, congrArg _⟩,
    fun m => ⟨m.size_flatten, m.get?_flatten, fun text value => ?_⟩⟩
  exact m.get?_flatten_eq_some_iff

end CpuMonitor
