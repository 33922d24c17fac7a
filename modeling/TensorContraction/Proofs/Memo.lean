import Mathlib.Data.List.Forall2
import TensorContraction.Proofs.Session

/-!
# Remembered counts

A descriptor remembers the operation count of its problem once it has been asked for it. This
file shows that the memo is no more than a shortcut. In every session, a memo that is filled
holds the count of the problem next to it, and nothing but a memo depends on which memos are
filled.

## One relation for both

That memos are right is about one session, and that they do not matter is about two: the same
session with memos filled in one way or another. Both follow from one relation. Two
descriptors are **alike** if they are of the same problem and both memos are right
(`TensorContraction.Descriptor.Alike`), and two sessions are if they hold the same table and,
under the same names, descriptors that are alike (`TensorContraction.Session.Alike`). A step
takes sessions that are alike to sessions that are alike, with answers that are
(`TensorContraction.Session.Alike.step`). A session is alike to itself if and only if its
memos are right.

A session that counts is alike to the one that it was before. So the counts can be left out of
a list of steps, and the other steps answer as they do with them
(`TensorContraction.Session.Alike.transcript_others`).
-/

namespace TensorContraction

/-! ### Descriptors -/

namespace Descriptor

/-- **A memo is right** if it holds the count of the problem, or nothing. -/
def IsCoherent (d : Descriptor) : Prop :=
  d.memo.ready = true → d.memo.value = d.problem.numFlops

/-- A descriptor whose memo is filled with the count of the problem. -/
def filled (p : Problem) : Descriptor :=
  ⟨p, ⟨p.numFlops, true⟩⟩

/-- **Descriptors of one problem**, both of which have memos that are right. -/
structure Alike (d e : Descriptor) : Prop where
  /-- The problems are the same. -/
  problem_eq : d.problem = e.problem
  /-- The memo of the first is right. -/
  left : d.IsCoherent
  /-- The memo of the second is right. -/
  right : e.IsCoherent

theorem isCoherent_ofProblem (p : Problem) : (ofProblem p).IsCoherent :=
  fun h => nomatch h

theorem isCoherent_filled (p : Problem) : (filled p).IsCoherent :=
  fun _ => rfl

theorem alike_ofProblem (p : Problem) : (ofProblem p).Alike (ofProblem p) :=
  ⟨rfl, isCoherent_ofProblem p, isCoherent_ofProblem p⟩

/-- **A descriptor answers with the count of its problem**, and then remembers it. -/
theorem IsCoherent.numFlops_eq {d : Descriptor} (h : d.IsCoherent) :
    d.numFlops = (d.problem.numFlops, filled d.problem) := by
  obtain ⟨p, value, ready⟩ := d
  cases ready with
  | false => rfl
  | true =>
    have hvalue : value = p.numFlops := h rfl
    rw [hvalue]
    rfl

/-- A copy remembers what was remembered. -/
theorem get?_clone (d : Descriptor) : d.clone.memo.get? = d.memo.get? := by
  obtain ⟨p, value, ready⟩ := d
  cases ready <;> rfl

theorem IsCoherent.clone {d : Descriptor} (h : d.IsCoherent) : d.clone.IsCoherent := by
  obtain ⟨p, value, ready⟩ := d
  cases ready with
  | false => exact isCoherent_ofProblem p
  | true => exact h

namespace Alike

variable {d e : Descriptor} (h : d.Alike e)
include h

theorem clone : d.clone.Alike e.clone :=
  ⟨h.problem_eq, h.left.clone, h.right.clone⟩

theorem withOffsets (enabled : Bool) : (d.withOffsets enabled).Alike (e.withOffsets enabled) := by
  rw [Descriptor.withOffsets, Descriptor.withOffsets, h.problem_eq]
  exact alike_ofProblem _

/-- Both descriptors answer with the same count. -/
theorem numFlops_fst : d.numFlops.1 = e.numFlops.1 := by
  rw [h.left.numFlops_eq, h.right.numFlops_eq, h.problem_eq]

theorem numFlops_snd : d.numFlops.2.Alike e.numFlops.2 := by
  rw [h.left.numFlops_eq, h.right.numFlops_eq, h.problem_eq]
  exact ⟨rfl, isCoherent_filled _, isCoherent_filled _⟩

end Alike

end Descriptor

namespace Session

/-! ### Sessions and answers -/

/-- Two entries of the names: one name, and descriptors that are alike. -/
def EntriesAlike (x y : String × Descriptor) : Prop :=
  x.1 = y.1 ∧ x.2.Alike y.2

/-- **Sessions that differ in memos**, at most. -/
structure Alike (s t : Session) : Prop where
  /-- The same names are in use, for descriptors that are alike. -/
  names : List.Forall₂ EntriesAlike s.names t.names
  /-- The tables are the same. -/
  table_eq : s.table = t.table

/-- **Answers that differ in memos**, at most. -/
inductive AnswersAlike : Except Failure Reply → Except Failure Reply → Prop
  /-- Descriptors that are alike. -/
  | descriptor {d e : Descriptor} (h : d.Alike e) :
    AnswersAlike (.ok (.descriptor d)) (.ok (.descriptor e))
  /-- The same answer. -/
  | same (answer : Except Failure Reply) : AnswersAlike answer answer

/-- **Outcomes of a step that differ in memos**, at most, where the steps are taken in two
given sessions. -/
inductive OutcomesAlike : Except Failure (Session × Reply) → Except Failure (Session × Reply) → Prop
  /-- Both steps fail, for the same reason. -/
  | error (failure : Failure) : OutcomesAlike (.error failure) (.error failure)
  /-- Both steps succeed. -/
  | ok {s t : Session} {reply reply' : Reply} (h : s.Alike t)
    (hreply : AnswersAlike (.ok reply) (.ok reply')) :
    OutcomesAlike (.ok (s, reply)) (.ok (t, reply'))

theorem alike_empty : empty.Alike empty :=
  ⟨.nil, rfl⟩

theorem forall₂_putName {l l' : List (String × Descriptor)} (h : List.Forall₂ EntriesAlike l l')
    (name : String) {d e : Descriptor} (hde : d.Alike e) :
    List.Forall₂ EntriesAlike (putName name d l) (putName name e l') := by
  induction h with
  | nil => exact .cons ⟨rfl, hde⟩ .nil
  | @cons x y l l' hxy hl ih =>
    obtain ⟨n, d'⟩ := x
    obtain ⟨n', e'⟩ := y
    obtain ⟨rfl, hde'⟩ : n = n' ∧ d'.Alike e' := hxy
    rw [putName, putName]
    split
    · exact .cons ⟨rfl, hde⟩ hl
    · exact .cons ⟨rfl, hde'⟩ ih

theorem lookup_of_forall₂ {l l' : List (String × Descriptor)}
    (h : List.Forall₂ EntriesAlike l l') (name : String) :
    l.lookup name = none ∧ l'.lookup name = none ∨
      ∃ d e, l.lookup name = some d ∧ l'.lookup name = some e ∧ d.Alike e := by
  induction h with
  | nil => exact .inl ⟨rfl, rfl⟩
  | @cons x y l l' hxy hl ih =>
    obtain ⟨n, d⟩ := x
    obtain ⟨n', e⟩ := y
    obtain ⟨rfl, hde⟩ : n = n' ∧ d.Alike e := hxy
    rw [List.lookup_cons, List.lookup_cons]
    split
    · exact .inr ⟨d, e, rfl, rfl, hde⟩
    · exact ih

namespace Alike

variable {s t : Session} (h : s.Alike t)
include h

/-- **Under a name**, both sessions have nothing, or descriptors that are alike. -/
theorem lookup (name : String) : s.names.lookup name = none ∧ t.names.lookup name = none ∨
    ∃ d e, s.names.lookup name = some d ∧ t.names.lookup name = some e ∧ d.Alike e :=
  lookup_of_forall₂ h.names name

theorem knows_eq (name : String) : s.knows name = t.knows name := by
  rw [knows, knows]
  rcases h.lookup name with ⟨hs, ht⟩ | ⟨d, e, hs, ht, -⟩
  · rw [hs, ht]
  · rw [hs, ht]
    rfl

theorem put (name : String) {d e : Descriptor} (hde : d.Alike e) :
    (s.put name d).Alike (t.put name e) :=
  ⟨forall₂_putName h.names name hde, h.table_eq⟩

theorem putReply (name : String) {d e : Descriptor} (hde : d.Alike e) :
    OutcomesAlike (.ok (s.putReply name d)) (.ok (t.putReply name e)) := by
  rw [Session.putReply, Session.putReply, hde.problem_eq, h.knows_eq]
  exact .ok (h.put name hde) (.same _)

/-- **A step that looks at a descriptor** has outcomes that are alike, if it has them for
descriptors that are. -/
theorem find_bind {name : String} {f g : Descriptor → Except Failure (Session × Reply)}
    (hfg : ∀ d e, d.Alike e → OutcomesAlike (f d) (g e)) :
    OutcomesAlike (s.find name >>= f) (t.find name >>= g) := by
  rw [find, find]
  rcases h.lookup name with ⟨hs, ht⟩ | ⟨d, e, hs, ht, hde⟩
  · rw [hs, ht]
    exact .error _
  · rw [hs, ht]
    exact hfg d e hde

/-- A step that asks for something other than a count, and changes nothing. -/
theorem ask {reply reply' : Reply} (hreply : reply = reply') :
    OutcomesAlike (.ok (s, reply)) (.ok (t, reply')) :=
  .ok h (hreply ▸ .same _)

/-! ### One step -/

/-- **One step** has outcomes that are alike. -/
theorem tryStep (step : Step) : OutcomesAlike (s.tryStep step) (t.tryStep step) := by
  cases step with
  | form name description =>
    rw [Session.tryStep, Session.tryStep]
    cases Problem.ofDescription description with
    | error e => exact .error _
    | ok p => exact h.putReply name (Descriptor.alike_ofProblem p)
  | decode name text =>
    rw [Session.tryStep, Session.tryStep]
    cases Encoding.decode text with
    | error e => exact .error _
    | ok p => exact h.putReply name (Descriptor.alike_ofProblem p)
  | clone name target => exact h.find_bind fun d e hde => h.putReply target hde.clone
  | withOffsets name target enabled =>
    exact h.find_bind fun d e hde => h.putReply target (hde.withOffsets enabled)
  | reencode name target level =>
    refine h.find_bind fun d e hde => ?_
    rw [hde.problem_eq, h.knows_eq]
    cases Encoding.decode (Encoding.encode e.problem level) with
    | error e => exact .error _
    | ok p => exact .ok (h.put target (Descriptor.alike_ofProblem p)) (.same _)
  | flops name =>
    refine h.find_bind fun d e hde => .ok (h.put name hde.numFlops_snd) ?_
    have hreply : Reply.flops d.numFlops.1 = Reply.flops e.numFlops.1 := by rw [hde.numFlops_fst]
    exact hreply ▸ .same _
  | validate name config =>
    exact h.find_bind fun d e hde => h.ask (by rw [hde.problem_eq])
  | inspect name =>
    exact h.find_bind fun d e hde => .ok (h.put name hde.numFlops_snd) (.descriptor hde)
  | compare left right =>
    refine h.find_bind fun d e hde => h.find_bind fun d' e' hde' => h.ask ?_
    rw [hde.problem_eq, hde'.problem_eq]
  | insert name value =>
    refine h.find_bind fun d e hde => ?_
    rw [hde.problem_eq, h.table_eq]
    exact .ok ⟨h.names, rfl⟩ (.same _)
  | lookup name =>
    exact h.find_bind fun d e hde => h.ask (by rw [hde.problem_eq, h.table_eq])
  | remove name =>
    refine h.find_bind fun d e hde => ?_
    rw [hde.problem_eq, h.table_eq]
    exact .ok ⟨h.names, rfl⟩ (.same _)
  | entriesFrom name =>
    exact h.find_bind fun d e hde => h.ask (by rw [hde.problem_eq, h.table_eq])
  | entries => exact h.ask (by rw [h.table_eq])

/-- **One step** keeps sessions alike, with answers that are alike. -/
theorem step (step : Step) :
    (s.step step).1.Alike (t.step step).1 ∧ AnswersAlike (s.step step).2 (t.step step).2 := by
  have houtcomes := h.tryStep step
  rw [Session.step, Session.step]
  generalize s.tryStep step = outcome at houtcomes
  generalize t.tryStep step = outcome' at houtcomes
  cases houtcomes with
  | error failure => exact ⟨h, .same _⟩
  | ok hnext hreply => exact ⟨hnext, hreply⟩

end Alike

/-! ### Counts -/

/-- Naming the descriptor that has the name changes nothing. -/
theorem putName_of_lookup {α : Type} {name : String} {x : α} {l : List (String × α)}
    (h : l.lookup name = some x) : putName name x l = l := by
  induction l with
  | nil => cases h
  | cons entry l ih =>
    obtain ⟨n, y⟩ := entry
    by_cases hn : n = name
    · subst hn
      rw [List.lookup_cons_self] at h
      rw [putName, if_pos rfl, Option.some.inj h]
    · have hne : (name == n) = false := beq_false_of_ne (Ne.symm hn)
      rw [List.lookup_cons, hne] at h
      rw [putName, if_neg hn, ih h]

/-- **A count** answers with the count of the problem and fills the memo, whether it was filled
before or not. -/
theorem step_flops {s : Session} {name : String} {d : Descriptor}
    (hname : s.names.lookup name = some d) (h : d.IsCoherent) :
    s.step (.flops name) = (s.put name (.filled d.problem), .ok (.flops d.problem.numFlops)) := by
  rw [step, tryStep, find_eq_of_lookup hname]
  change (s.put name d.numFlops.2, Except.ok (Reply.flops d.numFlops.1)) = _
  rw [h.numFlops_eq]

/-- Looking at a problem shows what was remembered of it, and fills the memo. -/
theorem step_inspect {s : Session} {name : String} {d : Descriptor}
    (hname : s.names.lookup name = some d) (h : d.IsCoherent) :
    s.step (.inspect name) = (s.put name (.filled d.problem), .ok (.descriptor d)) := by
  rw [step, tryStep, find_eq_of_lookup hname]
  change (s.put name d.numFlops.2, Except.ok (Reply.descriptor d)) = _
  rw [h.numFlops_eq]

/-- **A count in one of two sessions** leaves them alike. -/
theorem Alike.step_flops_left {s t : Session} (h : s.Alike t) (name : String) :
    (s.step (.flops name)).1.Alike t := by
  rcases h.lookup name with ⟨hs, -⟩ | ⟨d, e, hs, ht, hde⟩
  · rw [Session.step, Session.tryStep, find, hs]
    exact h
  · have hput : t.put name e = t := by
      rw [Session.put, putName_of_lookup ht]
    rw [step_flops hs hde.left, ← hput]
    exact h.put name ⟨hde.problem_eq, Descriptor.isCoherent_filled _, hde.right⟩

/-! ### Runs -/

/-- The steps of a run, each with its answer. -/
def transcript (s : Session) : List Step → List (Step × Except Failure Reply)
  | [] => []
  | step :: steps => (step, (s.step step).2) :: (s.step step).1.transcript steps

/-- Whether a step asks for something other than a count. -/
def Step.isOther : Step → Bool
  | .flops _ => false
  | _ => true

/-- Two lines of transcripts: the same step, with answers that are alike. -/
def LinesAlike (x y : Step × Except Failure Reply) : Prop :=
  x.1 = y.1 ∧ AnswersAlike x.2 y.2

namespace Alike

variable {s t : Session}

theorem run (h : s.Alike t) (steps : List Step) : (s.run steps).Alike (t.run steps) := by
  induction steps generalizing s t with
  | nil => exact h
  | cons step steps ih => exact ih (h.step step).1

/-- **A run** has answers that do not depend on which memos are filled at its start. -/
theorem transcript (h : s.Alike t) (steps : List Step) :
    List.Forall₂ LinesAlike (s.transcript steps) (t.transcript steps) := by
  induction steps generalizing s t with
  | nil => exact .nil
  | cons step steps ih => exact .cons ⟨rfl, (h.step step).2⟩ (ih (h.step step).1)

/-- **A run without its counts** has the same other answers. -/
theorem transcript_others (h : s.Alike t) (steps : List Step) :
    List.Forall₂ LinesAlike ((s.transcript steps).filter fun line => line.1.isOther)
      (t.transcript (steps.filter Step.isOther)) := by
  induction steps generalizing s t with
  | nil => exact .nil
  | cons step steps ih =>
    rw [Session.transcript, List.filter_cons, List.filter_cons]
    by_cases hother : step.isOther = true
    · rw [if_pos hother, if_pos hother]
      exact .cons ⟨rfl, (h.step step).2⟩ (ih (h.step step).1)
    · rw [if_neg hother, if_neg hother]
      -- the step is a count, and only the first session takes it
      cases step with
      | flops name => exact ih (h.step_flops_left name)
      | _ => exact absurd rfl hother

end Alike

/-- **What a session remembers is right, and nobody can tell.** After any steps, the memo of a
descriptor that has a name is filled with the count of its problem, or not filled. Asked for
the count, the session answers with it, and the memo is filled; a copy remembers what its
original does. The answers to any later steps are those of a session whose descriptors are of
the same problems, with whichever memos filled; and the counts can be left out of the steps
without a difference to the other answers. -/
theorem counts_of_run (steps : List Step) :
    let s := empty.run steps
    (∀ name d, s.names.lookup name = some d →
      (d.memo.ready = true → d.memo.value = d.problem.numFlops) ∧
        s.step (.flops name) = (s.put name ⟨d.problem, ⟨d.problem.numFlops, true⟩⟩,
          .ok (.flops d.problem.numFlops)) ∧
        s.step (.inspect name) = (s.put name ⟨d.problem, ⟨d.problem.numFlops, true⟩⟩,
          .ok (.descriptor d)) ∧
        d.clone.memo.get? = d.memo.get?) ∧
      (∀ t, s.Alike t → ∀ later,
        List.Forall₂ LinesAlike (s.transcript later) (t.transcript later)) ∧
      List.Forall₂ LinesAlike ((empty.transcript steps).filter fun line => line.1.isOther)
        (empty.transcript (steps.filter Step.isOther)) := by
  intro s
  refine ⟨fun name d hname => ?_, fun t => Alike.transcript, alike_empty.transcript_others steps⟩
  have hcoherent : d.IsCoherent := by
    rcases (alike_empty.run steps).lookup name with ⟨hnone, -⟩ | ⟨d', e, hsome, -, hde⟩
    · cases hnone.symm.trans hname
    · obtain rfl : d = d' := Option.some.inj (hname.symm.trans hsome)
      exact hde.left
  exact ⟨hcoherent, step_flops hname hcoherent, step_inspect hname hcoherent, d.get?_clone⟩

/-- A product that sums over an empty direction. -/
def hollowProduct : Problem where
  c := .packed .single [4, 8]
  a := .packed .single [0, 4, 3]
  b := .packed .single [3, 8, 0]
  idsA := [3, 0, 2]
  idsB := [2, 1, 3]
  operation := .gemm .single
  profile := .reference
  classification := ⟨[0, 1], [], [⟨2, 0⟩, ⟨0, 2⟩]⟩
  length_idsA := rfl
  length_idsB := rfl
  classify_eq := rfl

/-- The same product with two in place of none, which takes 384 operations. -/
def fullProduct : Problem where
  c := .packed .single [4, 8]
  a := .packed .single [2, 4, 3]
  b := .packed .single [3, 8, 2]
  idsA := [3, 0, 2]
  idsB := [2, 1, 3]
  operation := .gemm .single
  profile := .reference
  classification := ⟨[0, 1], [], [⟨2, 0⟩, ⟨0, 2⟩]⟩
  length_idsA := rfl
  length_idsB := rfl
  classify_eq := rfl

/-- A product is copied before it is counted and after, and another one is counted and
copied. -/
def copyingSteps : List Step :=
  [.form "p" hollowProduct.toDescription, .clone "p" "early", .flops "p", .clone "p" "late",
    .form "q" fullProduct.toDescription, .flops "q", .clone "q" "full"]

/-- The same problems under the same names, all of them counted. -/
def countedCopies : Session :=
  ⟨[("p", .filled hollowProduct), ("early", .filled hollowProduct),
    ("late", .filled hollowProduct), ("q", .filled fullProduct), ("full", .filled fullProduct)],
    .empty⟩

/-- The late copy remembers the count zero and the early copy remembers nothing; both answer
with zero. The copy of the other product remembers its count and answers with it. What they are
like cannot be told from a session in which all are counted. -/
theorem counts_of_run_copies :
    let s := empty.run copyingSteps
    s.names.lookup "early" = some ⟨hollowProduct, ⟨0, false⟩⟩ ∧
      s.names.lookup "late" = some ⟨hollowProduct, ⟨0, true⟩⟩ ∧
      s.names.lookup "full" = some ⟨fullProduct, ⟨384, true⟩⟩ ∧
      (s.step (.flops "early")).2 = .ok (.flops 0) ∧
      (s.step (.flops "late")).2 = .ok (.flops 0) ∧
      (s.step (.flops "full")).2 = .ok (.flops 384) ∧
      List.Forall₂ LinesAlike (s.transcript [.compare "early" "late", .inspect "early"])
        (countedCopies.transcript [.compare "early" "late", .inspect "early"]) := by
  obtain ⟨hcounts, hlater, -⟩ := counts_of_run copyingSteps
  obtain ⟨-, hearly, -⟩ := hcounts "early" ⟨hollowProduct, ⟨0, false⟩⟩ rfl
  obtain ⟨-, hlate, -⟩ := hcounts "late" ⟨hollowProduct, ⟨0, true⟩⟩ rfl
  obtain ⟨-, hfull, -⟩ := hcounts "full" ⟨fullProduct, ⟨384, true⟩⟩ rfl
  have hhollow := Descriptor.isCoherent_filled hollowProduct
  have hunset := Descriptor.isCoherent_ofProblem hollowProduct
  have hother := Descriptor.isCoherent_filled fullProduct
  have halike : (empty.run copyingSteps).Alike countedCopies := by
    refine ⟨.cons ⟨rfl, rfl, hhollow, hhollow⟩ ?_, rfl⟩
    refine .cons ⟨rfl, rfl, hunset, hhollow⟩ (.cons ⟨rfl, rfl, hhollow, hhollow⟩ ?_)
    exact .cons ⟨rfl, rfl, hother, hother⟩ (.cons ⟨rfl, rfl, hother, hother⟩ .nil)
  exact ⟨rfl, rfl, rfl, congrArg Prod.snd hearly, congrArg Prod.snd hlate,
    congrArg Prod.snd hfull, hlater _ halike _⟩

end Session

end TensorContraction
