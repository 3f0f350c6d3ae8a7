import WindowScript.Evaluation.Session
import WindowScript.Proofs.Evaluation.Depth
import WindowScript.Proofs.Value.Bindings

/-!
# What names stand for in a call

A parameter with an argument is bound to that argument. A parameter without one is bound by the
call as little as any name that is no parameter: it stands for the function that is called where
it has its name, and for what the function captured elsewhere. So it is unbound only where
nothing of its name has been captured.
-/

set_option autoImplicit false

namespace WindowScript

namespace Evaluator

/-- The parameters that have an argument. -/
theorem map_fst_zip_eq_take {parameters : List String} {arguments : List Value} :
    (parameters.zip arguments).map Prod.fst = parameters.take arguments.length := by
  induction parameters generalizing arguments with
  | nil => simp
  | cons parameter rest ih =>
      cases arguments with
      | nil => rfl
      | cons argument others => simp [ih]

private theorem zip_take_length (parameters : List String) (arguments : List Value) :
    parameters.zip (arguments.take parameters.length) = parameters.zip arguments := by
  induction parameters generalizing arguments with
  | nil => rfl
  | cons parameter rest ih =>
      cases arguments with
      | nil => rfl
      | cons argument others => simp [ih]

variable {definition : Function} {captured : Scope} {arguments : List Value}

private theorem find?_callScope_of_getElem? (distinct : definition.parameters.Nodup) {index : Nat}
    {parameter : String} {argument : Value}
    (found : definition.parameters[index]? = some parameter)
    (given : arguments[index]? = some argument) :
    Bindings.find? parameter (callScope definition captured arguments) = some argument := by
  refine Bindings.find?_insertAll_of_mem ?_ ?_ _
  · rw [map_fst_zip_eq_take]
    exact distinct.sublist (List.take_sublist _ _)
  · refine List.mem_of_getElem? (i := index) ?_
    rw [List.getElem?_zip_eq_some]
    exact ⟨found, given⟩

private theorem find?_callScope_of_not_mem {name : String}
    (absent : name ∉ definition.parameters.take arguments.length) :
    Bindings.find? name (callScope definition captured arguments) =
      if name = definition.name then some (.function definition captured)
      else Bindings.find? name captured := by
  unfold callScope
  rw [Bindings.find?_insertAll_of_not_mem (map_fst_zip_eq_take ▸ absent), Bindings.find?_insert]

end Evaluator

section

variable {name : String} {scope : Scope} (unbound : Bindings.find? name scope = none)
  {progress : Progress} (room : progress.depth < maxDepth) (host : Host) (position : Position)

include unbound room

private theorem evaluate_name_of_unbound :
    (evaluate host (.name name position) scope).run progress =
      (.error ⟨.unknownVariable name, position⟩, progress) := by
  have missing : (evaluateWithin host maxDepth).step host (.name name position) scope =
      Fallible.fail (.unknownVariable name) position := by
    simp only [Evaluator.step, unbound]
  rw [evaluate, evaluateWithin, Evaluation.run_nested_of_lt room, missing]
  rfl

/-- The arguments of a call of an unbound name are not evaluated. -/
theorem evaluate_call_of_unbound (arguments : List Expr) :
    (evaluate host (.call name arguments position) scope).run progress =
      (.error ⟨.unknownFunction name, position⟩, progress) := by
  have missing : Evaluator.resolve name position scope =
      Fallible.fail (.unknownFunction name) position := by
    simp only [Evaluator.resolve, unbound]
  rw [evaluate, evaluateWithin, Evaluation.run_nested_of_lt room, Evaluator.step, Evaluator.call,
    missing]
  rfl

end

/-- The body of a function begins with each parameter that has an argument bound to it, and with
any other name, that of a parameter without an argument among them, standing for the function
itself or else for what has been captured. Arguments beyond the parameters make no difference.
So a parameter without an argument is unbound, and fails to be read and to be called, exactly
when it has not the name of the function and nothing of its name has been captured. -/
theorem Evaluator.apply_binds (definition : Function) (captured : Scope) (arguments : List Value)
    (distinct : definition.parameters.Nodup) :
    (∀ (evaluate : Evaluator) host name position,
      evaluate.apply host name (.function definition captured) arguments position =
        evaluate.body .absent
          (callScope definition captured (arguments.take definition.parameters.length))
          definition.body) ∧
    (∀ (index : Nat) parameter argument, definition.parameters[index]? = some parameter →
      arguments[index]? = some argument →
        Bindings.find? parameter (callScope definition captured arguments) = some argument) ∧
    (∀ name, name ∉ definition.parameters.take arguments.length →
      Bindings.find? name (callScope definition captured arguments) =
        if name = definition.name then some (.function definition captured)
        else Bindings.find? name captured) ∧
    ∀ parameter ∈ definition.parameters.drop arguments.length,
      (Bindings.find? parameter (callScope definition captured arguments) = none ↔
        parameter ≠ definition.name ∧ Bindings.find? parameter captured = none) ∧
      (Bindings.find? parameter (callScope definition captured arguments) = none →
        ∀ host position progress, progress.depth < maxDepth →
          (WindowScript.evaluate host (.name parameter position)
              (callScope definition captured arguments)).run progress =
            (.error ⟨.unknownVariable parameter, position⟩, progress) ∧
          ∀ items,
            (WindowScript.evaluate host (.call parameter items position)
                (callScope definition captured arguments)).run progress =
              (.error ⟨.unknownFunction parameter, position⟩, progress)) := by
  refine ⟨?_, ?_, fun name => find?_callScope_of_not_mem, ?_⟩
  · intro evaluate host name position
    simp only [apply, callScope, zip_take_length]
  · intro index parameter argument
    exact find?_callScope_of_getElem? distinct
  · intro parameter missing
    refine ⟨?_, fun unbound host position progress room =>
      ⟨evaluate_name_of_unbound unbound room host position,
        evaluate_call_of_unbound unbound room host position⟩⟩
    have absent : parameter ∉ definition.parameters.take arguments.length := fun given =>
      List.disjoint_take_drop distinct (Nat.le_refl _) given missing
    rw [find?_callScope_of_not_mem absent]
    by_cases own : parameter = definition.name <;> simp [own]

/-- The definition of `func f(a, f, b, c) { }`. -/
def clashing : Function := ⟨"f", ["a", "f", "b", "c"], [], ⟨1, 1⟩⟩

/-- Of the parameters without an argument one has the name of the function, one that of a
captured variable, and one a name of its own. -/
theorem Evaluator.apply_binds_clashing :
    let captured : Scope := [("b", .integer 5)]
    let scope := callScope clashing captured [.integer 1]
    Bindings.find? "a" scope = some (.integer 1) ∧
      Bindings.find? "f" scope = some (.function clashing captured) ∧
      Bindings.find? "b" scope = some (.integer 5) ∧
      (WindowScript.evaluate .quiet (.name "c" ⟨1, 22⟩) scope).run ⟨[], 1⟩ =
        (.error ⟨.unknownVariable "c", ⟨1, 22⟩⟩, ⟨[], 1⟩) := by
  intro captured scope
  obtain ⟨-, given, others, missing⟩ :=
    apply_binds clashing captured [.integer 1] (by decide)
  obtain ⟨unbound, fails⟩ := missing "c" (by decide)
  have free : Bindings.find? "c" scope = none := unbound.mpr ⟨by decide, by rfl⟩
  exact ⟨given 0 "a" _ rfl rfl, others "f" (by decide), others "b" (by decide),
    (fails free .quiet ⟨1, 22⟩ ⟨[], 1⟩ (by decide)).1⟩

/-- The program of the source `let b = 5; func second(a, b) { b }; second(1)`. -/
def callsSecond : Program :=
  [.binding "b" (.integer 5 ⟨1, 9⟩) ⟨1, 1⟩,
    .function "second" ["a", "b"] [.expression (.name "b" ⟨1, 32⟩) ⟨1, 32⟩] ⟨1, 12⟩,
    .expression (.call "second" [.integer 1 ⟨1, 44⟩] ⟨1, 37⟩) ⟨1, 37⟩]

/-- A parameter without an argument is not always unbound: this one stands for the variable of
its name that was bound in front of the function. -/
theorem Evaluator.missing_argument_captured :
    (Session.fresh.run .quiet callsSecond).1 = .ok (.integer 5) ∧
      ¬ ∀ (definition : Function) (captured : Scope) (arguments : List Value),
        definition.parameters.Nodup → ∀ parameter ∈ definition.parameters.drop arguments.length,
          Bindings.find? parameter (callScope definition captured arguments) = none := by
  refine ⟨by rfl, fun unbound => ?_⟩
  have free := unbound ⟨"second", ["a", "b"], [], ⟨1, 12⟩⟩ [("b", .integer 5)] [.integer 1]
    (by decide) "b" (by decide)
  have found : Bindings.find? "b" (callScope ⟨"second", ["a", "b"], [], ⟨1, 12⟩⟩
      [("b", .integer 5)] [.integer 1]) = some (.integer 5) := rfl
  rw [found] at free
  cases free

end WindowScript
