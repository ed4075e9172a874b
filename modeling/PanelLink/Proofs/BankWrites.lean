/-
**What a register bank hands to its channel.**

A bank settles the width of a payload before its channel sees it, and it refuses one whose elements do
not suit that width. None of this depends on what the channel does.

* `RegisterBank.run_write`: a write is refused, or it is one write of the channel;
* `RegisterBank.write_none`, `RegisterBank.write_of_empty`: a write without a payload, or of an empty
  one;
* **`RegisterBank.write_suited`**: a payload goes to the channel with the width at which it travels, and
  `RegisterBank.write_some`: as it is, if it says the width.
-/

import PanelLink.RegisterBank

namespace PanelLink.RegisterBank

variable {m : Type → Type} [Monad m] (bank : RegisterBank m) (register : Nat)

/-- **A write without elements is one without a payload**, whatever their size, their width and their
selector would be. -/
theorem write_of_empty {request : WriteRequest} (empty : request.words.values = []) :
    bank.write register (some request) = bank.write register none := by
  have none_left : WriteRequest.nonempty? (some request) = none := by
    simp [WriteRequest.nonempty?, Words.isEmpty, empty]
  have same : bank.resolve (some request) = bank.resolve none := by
    unfold resolve
    rw [none_left]
    rfl
  unfold write
  rw [same]

variable [LawfulMonad m]

theorem run_write (request : Option WriteRequest) :
    (bank.write register request).run =
      match bank.resolve request with
      | .error error => pure (.error error)
      | .ok resolved => (bank.channel.write bank.context register resolved).run := by
  unfold write
  cases bank.resolve request with
  | error error => exact pure_bind (m := m) _ _
  | ok resolved => exact pure_bind (m := m) _ _

/-- A payload that is accepted goes to the channel as it was settled. -/
theorem write_of_resolve {request resolved : Option WriteRequest}
    (settled : bank.resolve request = .ok resolved) :
    bank.write register request = bank.channel.write bank.context register resolved := by
  refine ExceptT.ext ?_
  rw [run_write, settled]

theorem write_none : bank.write register none = bank.channel.write bank.context register none :=
  bank.write_of_resolve register rfl

variable {request : WriteRequest}

/-- **A payload whose elements suit the width** at which they travel goes to the channel with it. -/
theorem write_suited (present : request.words.values ≠ [])
    (suits : request.words.element = (request.effectiveWidth bank.config.width).element) :
    bank.write register (some request) = bank.channel.write bank.context register
      (some { request with width := some (request.effectiveWidth bank.config.width) }) := by
  refine bank.write_of_resolve register ?_
  have nonempty : WriteRequest.nonempty? (some request) = some request := by
    simp [WriteRequest.nonempty?, Words.isEmpty, present]
  unfold resolve
  rw [nonempty]
  exact if_pos suits

/-- A payload that says its width goes to the channel as it is. -/
theorem write_some {width : Width} (asked : request.width = some width)
    (present : request.words.values ≠ []) (suits : request.words.element = width.element) :
    bank.write register (some request) =
      bank.channel.write bank.context register (some request) := by
  have effective : request.effectiveWidth bank.config.width = width := by
    rw [WriteRequest.effectiveWidth, asked, Option.getD_some]
  rw [bank.write_suited register present (by rw [effective]; exact suits), effective, ← asked]

end PanelLink.RegisterBank
