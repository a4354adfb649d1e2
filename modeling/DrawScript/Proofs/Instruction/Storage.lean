import DrawScript.Instruction.Builtin
import DrawScript.Proofs.Instruction.Registry
import DrawScript.Proofs.Text.Bytes
import DrawScript.Proofs.Toml.Schema

/-!
Registries are stored without loss. The registry of a schema holds the signatures of the schema, sorted
by the bytes of their names, and the schema that is written for a registry loads as this registry again.
So does the text that is written for it, in every format that gives back the schemas it is given, and the
TOML texts are such a format. This holds of the built-in registry too.
-/

namespace DrawScript

/-- The format writes a text for the schema and reads the schema from this text. -/
def TextFormat.Keeps (format : TextFormat) (s : Schema) : Prop :=
  ∃ text, format.write? s = some text ∧ format.read? text = some s

def Registry.Sound (r : Registry) : Prop := ∀ sig ∈ r.signatures, Schema.fault? sig = none

theorem Schema.interactions_ne_nil {sig : Signature} (h : fault? sig = none) : sig.interactions ≠ [] := by
  intro hnil
  simp [fault?, hnil] at h

namespace Registry

variable {r : Registry} {format : TextFormat}

theorem Sound.of_toRegistry {s : Schema} (h : s.toRegistry = .ok r) : r.Sound := by
  obtain ⟨⟨hnames, hfaults⟩, rfl⟩ := Schema.toRegistry_eq_ok_iff.mp h
  intro sig hsig
  exact hfaults sig ((perm_ofList hnames).mem_iff.mp hsig)

theorem Sound.toRegistry (h : r.Sound) : (Schema.ofRegistry r).toRegistry = .ok r :=
  Schema.toRegistry_eq_ok_iff.mpr ⟨⟨r.nodup_names, h⟩, (ofList_signatures r).symm⟩

theorem Sound.exists_textIn (h : r.Sound) (hformat : format.Keeps (Schema.ofRegistry r)) :
    ∃ text, r.textIn format = .ok text ∧ ofText format text = .ok r := by
  obtain ⟨text, hwrite, hread⟩ := hformat
  refine ⟨text, ?_, ?_⟩
  · rw [textIn, hwrite]
  · rw [ofText, hread]
    exact h.toRegistry

theorem textIn_toml (r : Registry) : r.textIn Toml.format = .ok r.toml := rfl

theorem Sound.keeps_toml (h : r.Sound) : Toml.format.Keeps (Schema.ofRegistry r) := by
  have hparse : Toml.parse? (Schema.ofRegistry r).toml = some (Schema.ofRegistry r).datum :=
    Schema.parse?_toml fun sig hsig => Schema.interactions_ne_nil (h sig hsig)
  refine ⟨_, rfl, ?_⟩
  change (Toml.parse? (Schema.ofRegistry r).toml).bind (Schema.ofDatum? .toml) = _
  rw [hparse, Option.bind_some, Schema.ofDatum?_datum]

end Registry

theorem Builtin.toRegistry_signatures : Schema.toRegistry ⟨signatures⟩ = .ok registry := by
  have hfault : Schema.firstFault? [] signatures = none := by decide +kernel
  rw [Schema.toRegistry, hfault]
  rfl

/-- Loading a schema sorts its signatures and loses none. What is written for the registry loads as the
same registry, as a schema and in every format of texts that keeps this schema. -/
theorem Schema.toRegistry_lossless {s : Schema} {r : Registry} (h : s.toRegistry = .ok r) :
    (ofRegistry r).instructions.Perm s.instructions ∧
      (ofRegistry r).instructions.Pairwise (fun a b => Text.bytes a.name < Text.bytes b.name) ∧
      (ofRegistry r).toRegistry = .ok r ∧
      (∀ name sig, r.get? name = some sig ↔ sig ∈ s.instructions ∧ sig.name = name) ∧
      (∀ name, r.get? name = none ↔ ∀ sig ∈ s.instructions, sig.name ≠ name) ∧
      (∀ format : TextFormat, format.Keeps (ofRegistry r) →
        ∃ text, r.textIn format = .ok text ∧ Registry.ofText format text = .ok r) ∧
      toRegistry ⟨Builtin.signatures⟩ = .ok Builtin.registry ∧
      ∀ format : TextFormat, format.Keeps (ofRegistry Builtin.registry) →
        ∃ text, Builtin.registry.textIn format = .ok text ∧
          Registry.ofText format text = .ok Builtin.registry := by
  obtain ⟨⟨hnames, -⟩, hr⟩ := toRegistry_eq_ok_iff.mp h
  have hperm : r.signatures.Perm s.instructions := hr ▸ Registry.perm_ofList hnames
  have hnone : ∀ name, r.get? name = none ↔ ∀ sig ∈ s.instructions, sig.name ≠ name := by
    intro name
    rw [get?_eq_none_iff_mem h, List.mem_map, not_exists]
    simp only [not_and, ne_eq]
  have hsound := Registry.Sound.of_toRegistry h
  have hbuiltin := Registry.Sound.of_toRegistry Builtin.toRegistry_signatures
  exact ⟨hperm, r.sorted.imp Text.bytes_lt_of_lt, hsound.toRegistry, fun _ _ => get?_eq_some_iff_mem h,
    hnone, fun _ => hsound.exists_textIn, Builtin.toRegistry_signatures, fun _ => hbuiltin.exists_textIn⟩

def Schema.sample : Schema :=
  ⟨[⟨"é\n\"\"\"\\", .reduce, [⟨[.num, .vec2], some .vec3⟩, ⟨[.num], none⟩]⟩,
    ⟨"it's \"so\"", .none, [⟨[], none⟩]⟩,
    ⟨"\"quoted\"", .elements, [⟨[.vec2], some .num⟩]⟩,
    ⟨"", .elements, [⟨[.vec3], none⟩]⟩,
    ⟨"\x01\t'''", .elements, [⟨[.vec3, .vec3], some .vec2⟩]⟩]⟩

theorem Schema.toRegistry_lossless_sample :
    ∃ r, sample.toRegistry = .ok r ∧
      r.names = ["", "\x01\t'''", "\"quoted\"", "it's \"so\"", "é\n\"\"\"\\"] ∧
      r.get? "it's \"so\"" = some ⟨"it's \"so\"", .none, [⟨[], none⟩]⟩ ∧
      Registry.ofToml r.toml = .ok r ∧
      Registry.ofToml Builtin.registry.toml = .ok Builtin.registry := by
  have hload : sample.toRegistry = .ok (Registry.ofList sample.instructions) := by
    have hfault : firstFault? [] sample.instructions = none := by decide +kernel
    rw [toRegistry, hfault]
  obtain ⟨-, -, -, hget, -, htext, hbuiltin, htextBuiltin⟩ := toRegistry_lossless hload
  obtain ⟨_, hwritten, hread⟩ := htext _ (Registry.Sound.of_toRegistry hload).keeps_toml
  obtain ⟨_, hwrittenBuiltin, hreadBuiltin⟩ :=
    htextBuiltin _ (Registry.Sound.of_toRegistry hbuiltin).keeps_toml
  rw [Registry.textIn_toml] at hwritten hwrittenBuiltin
  obtain rfl := Except.ok.inj hwritten
  obtain rfl := Except.ok.inj hwrittenBuiltin
  refine ⟨_, hload, by decide +kernel, (hget _ _).mpr ⟨?_, rfl⟩, hread, hreadBuiltin⟩
  simp [sample]

end DrawScript
