import SuiteRunner.Config.Decode
import SuiteRunner.Proofs.Except

/-!
# Reading the keys of a layer

Whatever no key of a document touches, the layer that is read from it has as it began. No
key touches the scope.
-/

namespace SuiteRunner.Config

open Toml (Value)

/-- What every key of a document keeps holds of the layer that is read from it. -/
theorem Layer.decode_keeps (holds : Layer → Prop)
    (keeps : ∀ {layer key value next}, holds layer → layer.set key value = .ok next → holds next)
    {scope : Path} {source : String} {layer : Layer} (initial : holds { scope })
    (decoded : Layer.decode scope source = .ok layer) : holds layer := by
  unfold Layer.decode at decoded
  split at decoded
  next => cases decoded
  next => exact foldlM_keeps holds keeps initial decoded

theorem Layer.exists_of_parse {tree : Files.FileTree} {scope : Path} {source : String}
    {layer : Layer} (parsed : Layer.parse tree scope source = .ok layer) :
    ∃ written, Layer.decode scope source = .ok written ∧ layer = written.anchored tree := by
  unfold Layer.parse at parsed
  cases decoded : Layer.decode scope source with
  | error fault => simp [decoded] at parsed
  | ok written =>
    simp only [decoded, Except.ok.injEq] at parsed
    exact ⟨written, rfl, parsed.symm⟩

theorem Layer.scope_set {layer next : Layer} {key : String} {value : Value}
    (decoded : layer.set key value = .ok next) : next.scope = layer.scope := by
  unfold Layer.set at decoded
  split at decoded
  case h_21 => cases decoded
  all_goals
    obtain ⟨found, read, built⟩ := bind_eq_ok decoded
    cases built
    rfl

theorem Layer.scope_of_decode {scope : Path} {source : String} {layer : Layer}
    (decoded : Layer.decode scope source = .ok layer) : layer.scope = scope :=
  decode_keeps (fun layer => layer.scope = scope)
    (fun same set => (scope_set set).trans same) rfl decoded

/-- Whatever the text of a layer file is, the layer has the scope that it was read for. -/
theorem Layer.scope_of_parse {tree : Files.FileTree} {scope : Path} {source : String}
    {layer : Layer} (parsed : Layer.parse tree scope source = .ok layer) :
    layer.scope = scope := by
  obtain ⟨written, decoded, rfl⟩ := exists_of_parse parsed
  have same : written.scope = scope := scope_of_decode decoded
  exact same

end SuiteRunner.Config
