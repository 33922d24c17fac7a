import Mathlib.Logic.Basic
import TensorContraction.Proofs.Problem.TotalOrder
import TensorContraction.Proofs.Table
import TensorContraction.Session

/-!
# The table of a session

Of all that happens in a session, two steps change the table of results: an insertion and a
removal, and these only if they name a problem that is there. They are the **deeds** of a
session (`TensorContraction.Session.deeds`), and the table is what the deeds have left: under
a problem there is the value of the latest deed under an equal problem, if that was an
insertion (`TensorContraction.Session.valueUnder`).

The problems by which results are put in, looked up and taken out may be copies of each
other, or copies with other offsets, or copies that have been encoded and decoded. All that
matters is whether they are equal, and equality is that of
`TensorContraction.Problem.Agrees`: offsets have no part in it. Of equal problems, the table
holds the one by which the entry was first put in.
-/

namespace TensorContraction

namespace Session

/-! ### Deeds -/

/-- What is done to a table. -/
inductive Deed
  | insert (key : Problem) (value : String)
  | remove (key : Problem)

/-- The problem under which something is done. -/
def Deed.key : Deed → Problem
  | insert key _ => key
  | remove key => key

/-- The value that a deed leaves under its problem. -/
def Deed.value? : Deed → Option String
  | insert _ value => some value
  | remove _ => none

/-- The table after a deed. -/
def Deed.apply (t : Table Problem String) : Deed → Table Problem String
  | insert key value => t.insert key value
  | remove key => t.erase key

/-- What a step of a session does to its table, if it does anything. -/
def deed? (s : Session) : Step → Option Deed
  | .insert name value => (s.names.lookup name).map fun d => .insert d.problem value
  | .remove name => (s.names.lookup name).map fun d => .remove d.problem
  | _ => none

/-- The session after a list of steps. -/
def run (s : Session) : List Step → Session
  | [] => s
  | step :: steps => (s.step step).1.run steps

/-- What a list of steps does to the table, in order. -/
def deeds (s : Session) : List Step → List Deed
  | [] => []
  | step :: steps => (s.deed? step).toList ++ (s.step step).1.deeds steps

/-- **The value that deeds leave under a problem**: that of the latest deed under an equal
problem, if that was an insertion. -/
def valueUnder (deeds : List Deed) (p : Problem) : Option String :=
  (deeds.reverse.find? fun deed => deed.key == p).bind Deed.value?

theorem valueUnder_concat (deeds : List Deed) (deed : Deed) (p : Problem) :
    valueUnder (deeds ++ [deed]) p =
      if deed.key == p then deed.value? else valueUnder deeds p := by
  rw [valueUnder, List.reverse_append, List.reverse_singleton, List.singleton_append,
    List.find?_cons]
  cases deed.key == p with
  | true => rfl
  | false => rfl

/-! ### One step

A step that neither inserts nor removes leaves the table as it is, whether it succeeds or
fails. -/

theorem find_eq_of_lookup {s : Session} {name : String} {d : Descriptor}
    (h : s.names.lookup name = some d) : s.find name = .ok d := by
  rw [find, h]

/-- An outcome of a step that leaves the table as it is. -/
def KeepsTable (s : Session) (outcome : Except Failure (Session × Reply)) : Prop :=
  ∀ next reply, outcome = .ok (next, reply) → next.table = s.table

section

variable {s : Session}

theorem keepsTable_error (failure : Failure) : s.KeepsTable (.error failure) := by
  intro next reply h
  cases h

theorem keepsTable_ok {next : Session} (h : next.table = s.table) (reply : Reply) :
    s.KeepsTable (.ok (next, reply)) := by
  rintro _ _ ⟨⟩
  exact h

theorem keepsTable_find {name : String} {f : Descriptor → Except Failure (Session × Reply)}
    (h : ∀ d, s.KeepsTable (f d)) : s.KeepsTable (s.find name >>= f) := by
  cases s.find name with
  | error failure => exact keepsTable_error failure
  | ok d => exact h d

theorem table_step_of_keepsTable {step : Step} (h : s.KeepsTable (s.tryStep step)) :
    (s.step step).1.table = s.table := by
  rw [Session.step]
  cases htry : s.tryStep step with
  | error failure => rfl
  | ok outcome => exact h outcome.1 outcome.2 htry

end

/-- **What a step does to the table.** -/
theorem table_step (s : Session) (step : Step) :
    (s.step step).1.table = (s.deed? step).elim s.table (Deed.apply s.table) := by
  cases step with
  | insert name value =>
    rw [Session.step, tryStep, deed?, find]
    cases s.names.lookup name <;> rfl
  | remove name =>
    rw [Session.step, tryStep, deed?, find]
    cases s.names.lookup name <;> rfl
  | form name description =>
    refine table_step_of_keepsTable ?_
    rw [tryStep]
    cases Problem.ofDescription description with
    | error e => exact keepsTable_error _
    | ok p => exact keepsTable_ok rfl _
  | decode name text =>
    refine table_step_of_keepsTable ?_
    rw [tryStep]
    cases Encoding.decode text with
    | error e => exact keepsTable_error _
    | ok p => exact keepsTable_ok rfl _
  | reencode name target level =>
    refine table_step_of_keepsTable (keepsTable_find fun d => ?_)
    cases Encoding.decode (Encoding.encode d.problem level) with
    | error e => exact keepsTable_error _
    | ok p => exact keepsTable_ok rfl _
  | compare left right =>
    exact table_step_of_keepsTable
      (keepsTable_find fun l => keepsTable_find fun r => keepsTable_ok rfl _)
  | clone name target =>
    exact table_step_of_keepsTable (keepsTable_find fun d => keepsTable_ok rfl _)
  | withOffsets name target enabled =>
    exact table_step_of_keepsTable (keepsTable_find fun d => keepsTable_ok rfl _)
  | flops name => exact table_step_of_keepsTable (keepsTable_find fun d => keepsTable_ok rfl _)
  | validate name config =>
    exact table_step_of_keepsTable (keepsTable_find fun d => keepsTable_ok rfl _)
  | inspect name => exact table_step_of_keepsTable (keepsTable_find fun d => keepsTable_ok rfl _)
  | lookup name => exact table_step_of_keepsTable (keepsTable_find fun d => keepsTable_ok rfl _)
  | entriesFrom name =>
    exact table_step_of_keepsTable (keepsTable_find fun d => keepsTable_ok rfl _)
  | entries => rfl

/-! ### Runs -/

/-- **A table that deeds have left**: its keys ascend, and under a problem there is what the
deeds have left there. -/
structure Reflects (t : Table Problem String) (deeds : List Deed) : Prop where
  /-- The keys ascend. -/
  ascending : t.IsAscending
  /-- What is under a problem is what the deeds have left there. -/
  get?_eq : ∀ p, t.get? p = valueUnder deeds p

theorem reflects_empty : Reflects empty.table [] :=
  ⟨Table.isAscending_empty, fun _ => rfl⟩

/-- A problem is under a key if and only if it equals the key. -/
theorem compare_eq_iff_beq_symm {p q : Problem} : compare p q = .eq ↔ (q == p) = true := by
  rw [Std.LawfulBEqCmp.compare_eq_iff_beq, Problem.beq_iff_key_eq, Problem.beq_iff_key_eq, eq_comm]

/-- One more deed. -/
theorem Reflects.apply {t : Table Problem String} {deeds : List Deed} (h : Reflects t deeds)
    (deed : Deed) : Reflects (deed.apply t) (deeds ++ [deed]) := by
  cases deed with
  | insert key value =>
    refine ⟨h.ascending.insert key value, fun p => ?_⟩
    rw [valueUnder_concat, Deed.apply, Table.get?_insert h.ascending, h.get?_eq]
    exact if_congr compare_eq_iff_beq_symm rfl rfl
  | remove key =>
    refine ⟨h.ascending.erase key, fun p => ?_⟩
    rw [valueUnder_concat, Deed.apply, Table.get?_erase h.ascending, h.get?_eq]
    exact if_congr compare_eq_iff_beq_symm rfl rfl

/-- One more step. -/
theorem Reflects.step {s : Session} {deeds : List Deed} (h : Reflects s.table deeds)
    (step : Step) : Reflects (s.step step).1.table (deeds ++ (s.deed? step).toList) := by
  rw [table_step]
  cases s.deed? step with
  | none =>
    rw [Option.toList_none, List.append_nil]
    exact h
  | some deed => exact h.apply deed

/-- **The table of a session** is what the deeds of its steps have left. -/
theorem Reflects.run {s : Session} {deeds : List Deed} (h : Reflects s.table deeds)
    (steps : List Step) : Reflects (s.run steps).table (deeds ++ s.deeds steps) := by
  induction steps generalizing s deeds with
  | nil =>
    rw [Session.deeds, List.append_nil]
    exact h
  | cons step steps ih =>
    rw [Session.deeds, ← List.append_assoc]
    exact ih (h.step step)

/-- Deeds leave the same under problems that are the same contraction. -/
theorem valueUnder_congr (deeds : List Deed) {p q : Problem} (h : p.Agrees q) :
    valueUnder deeds p = valueUnder deeds q := by
  have hkey : (fun deed : Deed => deed.key == p) = fun deed => deed.key == q := by
    funext deed
    rw [Bool.eq_iff_iff, Problem.beq_iff_key_eq, Problem.beq_iff_key_eq,
      Problem.key_eq_iff_agrees.2 h]
  rw [valueUnder, valueUnder, hkey]

/-! ### Answers -/

/-- **A session keeps a table**, and answers from it. After any steps, the keys ascend, and
under a problem there is what the steps have left there, whatever its offsets. Seen from a
problem that has a name, looking up, inserting and removing all answer with the value under
it. Inserting replaces this value and removing takes out the entry; the entries on both sides
stay, and so does the key, if there is one. Listing from a problem on gives the entries whose
keys are not less. -/
theorem table_of_run (steps : List Step) :
    let s := empty.run steps
    let deeds := empty.deeds steps
    s.table.IsAscending ∧
      (∀ p, s.table.get? p = valueUnder deeds p) ∧
      (∀ p q, p.Agrees q → valueUnder deeds p = valueUnder deeds q) ∧
      ∀ name d, s.names.lookup name = some d →
        ∃ before here after, s.table.SplitsAt d.problem before here after ∧
          here.map Prod.snd = valueUnder deeds d.problem ∧
          s.step (.lookup name) = (s, .ok (.found (valueUnder deeds d.problem))) ∧
          (∀ value, ∃ t : Table Problem String,
            t.SplitsAt d.problem before (some ((here.map Prod.fst).getD d.problem, value)) after ∧
              s.step (.insert name value) =
                ({ s with table := t }, .ok (.previous (valueUnder deeds d.problem)))) ∧
          (∃ t : Table Problem String, t.SplitsAt d.problem before none after ∧
            s.step (.remove name) =
              ({ s with table := t }, .ok (.removed (valueUnder deeds d.problem)))) ∧
          s.step (.entriesFrom name) =
            (s, .ok (.entries (s.table.entries.filter fun entry =>
              (compare d.problem entry.1).isLE))) := by
  intro s deeds
  have hreflects : Reflects s.table deeds := reflects_empty.run steps
  refine ⟨hreflects.ascending, hreflects.get?_eq, fun p q => valueUnder_congr deeds, ?_⟩
  intro name d hname
  have hfind := find_eq_of_lookup hname
  have hvalue := hreflects.get?_eq d.problem
  obtain ⟨before, here, after, hsplit⟩ := hreflects.ascending.exists_splitsAt d.problem
  refine ⟨before, here, after, hsplit, hsplit.get?_eq.symm.trans hvalue, ?_, fun value => ?_, ?_,
    ?_⟩
  · rw [Session.step, tryStep, hfind, ← hvalue]
    rfl
  · refine ⟨_, hsplit.insert value, ?_⟩
    rw [Session.step, tryStep, hfind, ← hvalue]
    rfl
  · refine ⟨_, hsplit.erase, ?_⟩
    rw [Session.step, tryStep, hfind, ← hvalue]
    rfl
  · rw [Session.step, tryStep, hfind, ← hsplit.entriesFrom_eq]
    rfl

/-- Two results for one product, the second by a copy that takes offsets. -/
def offsetsSteps : List Step :=
  [.form "p" (Problem.scaledProduct .single).toDescription, .withOffsets "p" "q" true,
    .insert "p" "slow", .insert "q" "fast"]

/-- The results are one entry, under the product that was put in first and with the value
that was put in last. -/
theorem table_of_run_offsets :
    ((empty.run offsetsSteps).step (.lookup "q")).2 = .ok (.found (some "fast")) ∧
      (empty.run offsetsSteps).table.entries = [(Problem.scaledProduct .single, "fast")] ∧
      ((empty.run offsetsSteps).step (.entriesFrom "q")).2 =
        .ok (.entries [(Problem.scaledProduct .single, "fast")]) := by
  obtain ⟨-, -, -, hanswers⟩ := table_of_run offsetsSteps
  obtain ⟨-, -, -, -, -, hlookup, -, -, hfrom⟩ := hanswers "q"
    (.ofProblem ((Problem.scaledProduct .single).withOffsets true)) rfl
  exact ⟨congrArg Prod.snd hlookup, rfl, congrArg Prod.snd hfrom⟩

end Session

end TensorContraction
