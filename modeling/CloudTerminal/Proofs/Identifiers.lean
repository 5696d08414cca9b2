import Mathlib.Data.List.Forall2
import CloudTerminal.Proofs.Numeral
import CloudTerminal.Proofs.Run

/-!
What the source of identifiers has issued. It moves only when an instance is created or a key is generated,
so the history of a run determines it (`Exchange.draw?`, `IdSource.advance`). An identifier ends in the number
of instances created so far, which sets it apart from all others as long as that number fits into its five
digits; `identifiers_follow_the_history` says both of whole runs.
-/

namespace CloudTerminal

/-- What a line takes from the source of identifiers. -/
inductive Draw where
  | instanceId
  | publicKey (comment : String)

/-- What a line that was carried out has drawn. Keys carry the identity of the settings. -/
def Exchange.draw? (identity : String) : Exchange → Option Draw
  | (words, .ok _) =>
    if words.command = "create" then some .instanceId
    else if words.command = "ssh-keygen" then some (.publicKey identity)
    else none
  | (_, .error _) => none

/-- The answer of a line that has created an instance. -/
def Exchange.creation? : Exchange → Option Reply
  | (words, .ok reply) => if words.command = "create" then some reply else none
  | (_, .error _) => none

/-- Whether a reply shows the identifier of the instance that it is about. -/
def Reply.Shows (reply : Reply) (id : String) : Prop :=
  ∃ type name, reply = .text (Instance.confirmation type name id)

namespace IdSource

def advance (source : IdSource) : Draw → IdSource
  | .instanceId => source.instanceId.2
  | .publicKey comment => (source.publicKey comment).2

/-- The instance identifiers among some draws, in order. -/
def identifiers (source : IdSource) : List Draw → List String
  | [] => []
  | .instanceId :: rest => source.instanceId.1 :: identifiers (source.advance .instanceId) rest
  | .publicKey comment :: rest => identifiers (source.advance (.publicKey comment)) rest

/-- The identifier that a random number and a running number make. -/
def identifier (random issued : Nat) : String :=
  "i-" ++ String.ofList (Text.hexDigits 12 random ++ Text.hexDigits 5 issued)

/-- Identifiers with the given random numbers, counted from `issued`. -/
def numbered (issued : Nat) (randoms : List Nat) : List String :=
  randoms.mapIdx fun i random => identifier random (issued + i + 1)

variable {source : IdSource} {issued : Nat}

theorem identifiers_append (source : IdSource) (first second : List Draw) :
    source.identifiers (first ++ second) =
      source.identifiers first ++ (first.foldl advance source).identifiers second := by
  induction first generalizing source with
  | nil => rfl
  | cons draw rest ih =>
    cases draw <;> simp only [List.cons_append, identifiers, List.foldl_cons, ih]

/-- The running number of an identifier depends only on how many were issued before it. -/
theorem identifiers_are_numbered (source : IdSource) (draws : List Draw) :
    ∃ randoms, source.identifiers draws = numbered source.issued randoms := by
  induction draws generalizing source with
  | nil => exact ⟨[], rfl⟩
  | cons draw rest ih =>
    obtain ⟨randoms, later⟩ := ih (source.advance draw)
    cases draw with
    | instanceId =>
      refine ⟨source.random.next64.1 :: randoms, ?_⟩
      rw [identifiers, later, numbered, numbered, List.mapIdx_cons]
      have next : (source.advance .instanceId).issued = source.issued + 1 := rfl
      simp only [next, Nat.add_assoc, Nat.add_comm 1]
      rfl
    | publicKey comment => exact ⟨randoms, later⟩

/-- An identifier determines the number that it was issued under, whatever its random part. -/
theorem identifier_determines_its_number {random other m n : Nat} (left : m < 2 ^ 20) (right : n < 2 ^ 20)
    (same : identifier random m = identifier other n) : m = n := by
  have digits := congrArg String.toList same
  simp only [identifier, String.toList_append, String.toList_ofList, List.append_cancel_left_eq] at digits
  obtain ⟨_, numbers⟩ := List.append_inj digits (by simp [Text.hexDigits])
  exact Text.padded_digits_determine_the_number (by decide) (Nat.le_refl 16) left right numbers

/-- Identifiers end in different numbers, so that they are distinct, whatever is drawn at random in front. -/
theorem numbered_are_distinct {randoms : List Nat} (few : issued + randoms.length < 2 ^ 20) :
    (numbered issued randoms).Nodup := by
  apply List.pairwise_iff_getElem.mpr
  intro i j first second before same
  simp only [numbered, List.length_mapIdx] at first second
  simp only [numbered, List.getElem_mapIdx] at same
  have numbers := identifier_determines_its_number (by omega) (by omega) same
  omega

/-- `i-` and seventeen hexadecimal digits, the last five of which are the number, filled up with zeros. -/
def EndsInNumber (number : Nat) (id : String) : Prop :=
  ∃ digits : List Char, id = "i-" ++ String.ofList digits ∧ digits.length = 17 ∧
    (∀ c ∈ digits, c ∈ Text.hexAlphabet) ∧
    digits.drop 12 = (Nat.toDigits 16 number).leftpad 5 '0'

/-- The number fills the five last places of an identifier as long as it fits there. -/
theorem identifier_ends_in_its_number (random : Nat) (few : issued < 2 ^ 20) :
    EndsInNumber issued (identifier random issued) := by
  refine ⟨_, rfl, by simp [Text.hexDigits], ?_, ?_⟩
  · intro c member
    rcases List.mem_append.mp member with leading | last
    · exact Text.padded_digits_are_hexadecimal c leading
    · exact Text.padded_digits_are_hexadecimal c last
  · rw [List.drop_left' (by simp [Text.hexDigits])]
    exact Text.padded_digits_fill_up_the_numeral (by decide) few

end IdSource

variable {setting : Setting} {world next : World} {words : Line} {result : Except Error Reply}

/-- A line that looks is neither that of an instance created nor that of a key generated. -/
theorem looking_draws_nothing (quiet : words.changes = false) :
    words.command ≠ "create" ∧ words.command ≠ "ssh-keygen" := by
  constructor
  · intro command
    simp [Line.changes, command] at quiet
  · intro command
    simp [Line.changes, command] at quiet

/-- A line moves the source as its exchange says, and shows the identifier that it has drawn. -/
theorem line_draws (effect : LineEffect setting world words (result, next)) :
    let draws := (Exchange.draw? setting.config.identity (words, result)).toList
    next.ids = draws.foldl IdSource.advance world.ids ∧
      List.Forall₂ Reply.Shows (Exchange.creation? (words, result)).toList
        (world.ids.identifiers draws) := by
  cases effect with
  | refused e => exact ⟨rfl, .nil⟩
  | look reply quiet =>
    obtain ⟨notCreate, notKeygen⟩ := looking_draws_nothing quiet
    simp [Exchange.draw?, Exchange.creation?, notCreate, notKeygen, IdSource.identifiers]
  | create name type said free =>
    subst said
    exact ⟨rfl, .cons ⟨type, name, rfl⟩ .nil⟩
  | power reply name power front back i said found other =>
    subst said
    cases power <;> exact ⟨rfl, .nil⟩
  | generate name name? key said named free made =>
    subst said
    exact ⟨rfl, .nil⟩
  | delete reply name front back i said found => subst said; exact ⟨rfl, .nil⟩
  | mark reply name front back key said found => subst said; exact ⟨rfl, .nil⟩
  | discard reply name front back key said found => subst said; exact ⟨rfl, .nil⟩
  | clone url name name? said named clear free idle => subst said; exact ⟨rfl, .nil⟩

private theorem filterMap_last {α β : Type} (f : α → Option β) (items : List α) (last : α) :
    (items ++ [last]).filterMap f = items.filterMap f ++ (f last).toList := by
  rw [List.filterMap_append]
  cases made : f last with
  | none => rw [List.filterMap_cons_none made]; rfl
  | some value => rw [List.filterMap_cons_some made]; rfl

/-- A run draws one identifier for each instance and one key for each key that its history says it has made,
in this order. -/
theorem run_draws (session : Session) (terminal : session.registry = Terminal.registry)
    (inputs : List Input) :
    let history := session.history inputs
    let draws := history.filterMap (Exchange.draw? session.config.identity)
    (session.after inputs).world.ids = draws.foldl IdSource.advance session.world.ids ∧
      List.Forall₂ Reply.Shows (history.filterMap Exchange.creation?)
        (session.world.ids.identifiers draws) := by
  refine session.run_keeps inputs
    (P := fun past world =>
      let draws := past.filterMap (Exchange.draw? session.config.identity)
      world.ids = draws.foldl IdSource.advance session.world.ids ∧
        List.Forall₂ Reply.Shows (past.filterMap Exchange.creation?)
          (session.world.ids.identifiers draws))
    terminal ⟨rfl, .nil⟩ ?_
  intro past world clock words result next effect ⟨moved, shown⟩
  obtain ⟨advanced, issued⟩ := line_draws effect
  have found : world.tick.2.ids = world.ids := rfl
  rw [found, moved] at advanced issued
  simp only [filterMap_last, List.foldl_append, IdSource.identifiers_append]
  exact ⟨advanced, List.rel_append shown issued⟩

/-- The history of a run determines its source of identifiers: creating an instance takes an identifier from
the source that it started with, generating a key takes a public key, and nothing else moves it. The answers to the
creations show the identifiers in order. While there are fewer than `2 ^ 20` of them, the `i`-th ends in its
number `i`, and no two are the same, nor would they be with other random numbers. -/
theorem identifiers_follow_the_history (config : Config) (entropy : Random.Source) (inputs : List Input) :
    let session := Session.start config entropy
    let source := IdSource.ofSeed? config.seed entropy
    let draws := (session.history inputs).filterMap (Exchange.draw? config.identity)
    let creations := (session.history inputs).filterMap Exchange.creation?
    let ids := source.identifiers draws
    (session.after inputs).world.ids = draws.foldl IdSource.advance source ∧
      List.Forall₂ Reply.Shows creations ids ∧
      (creations.length < 2 ^ 20 →
        (∀ i id, ids[i]? = some id → IdSource.EndsInNumber (i + 1) id) ∧ ids.Nodup ∧
        ∃ randoms, ids = IdSource.numbered 0 randoms ∧
          ∀ others : List Nat, others.length = randoms.length → (IdSource.numbered 0 others).Nodup) := by
  intro session source draws creations ids
  obtain ⟨moved, shown⟩ := run_draws session rfl inputs
  refine ⟨moved, shown, ?_⟩
  intro few
  obtain ⟨randoms, numbered⟩ := source.identifiers_are_numbered draws
  have start : source.issued = 0 := IdSource.nothing_issued_at_the_start config.seed entropy
  rw [start] at numbered
  have count : randoms.length = creations.length := by
    rw [shown.length_eq]
    exact (List.length_mapIdx.symm.trans (congrArg List.length numbered.symm))
  have distinct : ∀ others : List Nat, others.length = randoms.length →
      (IdSource.numbered 0 others).Nodup := by
    intro others same
    exact IdSource.numbered_are_distinct (by omega)
  refine ⟨?_, ?_, randoms, numbered, distinct⟩
  · intro i id listed
    change (source.identifiers draws)[i]? = some id at listed
    rw [numbered, IdSource.numbered, List.getElem?_mapIdx] at listed
    obtain ⟨random, drawn, rfl⟩ := Option.map_eq_some_iff.mp listed
    have inside := (List.getElem?_eq_some_iff.mp drawn).1
    rw [Nat.zero_add]
    exact IdSource.identifier_ends_in_its_number random (by omega)
  · change (source.identifiers draws).Nodup
    rw [numbered]
    exact distinct randoms rfl

/-- An instance that is created again after it was deleted gets another identifier. -/
theorem created_again_under_another_identifier :
    let history := (Session.start { seed := some 7 } 0).history
      [⟨"", "create instance web compute"⟩, ⟨"", "delete instance web"⟩, ⟨"", "ssh-keygen"⟩,
        ⟨"", "create instance web compute"⟩]
    let ids := (IdSource.ofSeed 7).identifiers (history.filterMap (Exchange.draw? ({} : Config).identity))
    ids.length = 2 ∧ ids.Nodup := by
  intro history ids
  have created : (history.filterMap Exchange.creation?).length = 2 := by rfl
  obtain ⟨_, shown, numbered⟩ := identifiers_follow_the_history { seed := some 7 } 0
    [⟨"", "create instance web compute"⟩, ⟨"", "delete instance web"⟩, ⟨"", "ssh-keygen"⟩,
      ⟨"", "create instance web compute"⟩]
  obtain ⟨_, distinct, _⟩ := numbered (by rw [created]; decide)
  exact ⟨shown.length_eq.symm.trans created, distinct⟩

end CloudTerminal
