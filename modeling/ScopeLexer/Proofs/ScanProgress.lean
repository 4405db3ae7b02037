import ScopeLexer.Proofs.ScanCourse

/-! Why a scan comes to an end although matches may be empty. Of the frames at
the top, those entered at the byte that has been reached count. While a scan
stays at a byte it leaves rules only as long as there are no such frames, and
the rules it enters there are different from one another. So at one byte it
leaves rules first and enters rules then, each rule at most once; and a bound on
the steps that are left goes down with every step. -/
namespace ScopeLexer.Line

open Grammar Pattern Regex

/-- The frames at the top that were entered at the byte reached. -/
def Cursor.here (cursor : Cursor) : List Frame :=
  cursor.stack.frames.takeWhile (·.enteredAt = some cursor.pos)

/-- The rule at the bottom of a stack. -/
def bottomRule (stack : Stack) : Option RuleId := stack.frames.getLast?.map Frame.rule

/-- What a match has to be for a step to be taken with it: it ends inside the
line, an end belongs to the rule at the top, and a rule that is entered exists. -/
structure Match.Fits (grammar : CompiledGrammar) (line : SourceLine) (stack : Stack)
    (found : Match) : Prop where
  stop : found.stop ≤ line.byteSize
  leaves : found.target = .leave → ∃ region, grammar.rule stack.top.rule = .region region
  enters : ∀ id, found.target = .enter id → id < grammar.rules.size

/-- Frames were entered one after the other up to the byte reached, those
entered there with different rules, and the root is at the bottom. -/
structure Cursor.Orderly (grammar : CompiledGrammar) (line : SourceLine) (cursor : Cursor) :
    Prop where
  inside : cursor.pos ≤ line.byteSize
  ordered : cursor.stack.frames.Pairwise fun upper lower =>
    ∀ byte, lower.enteredAt = some byte → ∃ later, upper.enteredAt = some later ∧ byte ≤ later
  past : ∀ frame ∈ cursor.stack.frames, ∀ byte, frame.enteredAt = some byte → byte ≤ cursor.pos
  distinct : (cursor.here.map Frame.rule).Nodup
  known : ∀ frame ∈ cursor.here, frame.rule < grammar.rules.size
  bottom : bottomRule cursor.stack = some grammar.root

/-- What a step that goes on does to the stack, and to the frames entered at the
byte reached. -/
inductive Cursor.Progress (cursor next : Cursor) : Prop where
  /-- A rule is left. -/
  | popped (frames : next.stack.frames = cursor.stack.rest) (here : next.here = [])
    (before : next.pos = cursor.pos → cursor.here = [])
  /-- A rule is entered. -/
  | pushed (frames : next.stack.frames = next.stack.top :: cursor.stack.frames)
    (stays : next.pos = cursor.pos → next.here = next.stack.top :: cursor.here ∧
      next.stack.top.rule ∉ cursor.here.map Frame.rule)
    (moves : next.pos ≠ cursor.pos → next.here = [])
  /-- A rule has matched within the line. -/
  | passed (stack : next.stack = cursor.stack) (moves : cursor.pos < next.pos)
    (here : next.here = [])

variable {σ : Type} {scanner : Scanner σ} {line : SourceLine} {cursor next : Cursor}
  {found : Match} {grammar : CompiledGrammar}

theorem Cursor.here_eq_nil (elsewhere : cursor.stack.top.enteredAt ≠ some cursor.pos) :
    cursor.here = [] := by
  simp [Cursor.here, Stack.frames, elsewhere]

theorem Cursor.pos_advance (cursor : Cursor) (stop : Nat) :
    (cursor.advance stop).pos = max cursor.pos stop := by
  unfold Cursor.advance
  split
  · simp only
    omega
  · omega

/-- A condition that holds leads to the end of its match. -/
theorem pos_of_checkCondition {rescan : Rescan σ} {work : Work σ} {stack : Stack}
    (checked : (checkCondition scanner rescan line cursor stack rule work).1 = some next) :
    ∃ found, (scanner.finder.condition line cursor.pos cursor.flavour stack.top work.finder).1 =
      some found ∧ next.pos = max cursor.pos found.stop := by
  unfold checkCondition at checked
  simp only at checked
  split at checked
  · cases checked
  next found answer =>
    cases checked
    exact ⟨found, answer, Cursor.pos_advance ..⟩

theorem Cursor.Orderly.here_le (orderly : Orderly grammar line cursor) :
    cursor.here.length ≤ grammar.rules.size := by
  have among : cursor.here.map Frame.rule ⊆ List.range grammar.rules.size := by
    intro id member
    obtain ⟨frame, held, rfl⟩ := List.mem_map.mp member
    exact List.mem_range.mpr (orderly.known frame held)
  have bound := orderly.distinct.length_le_of_subset among
  rwa [List.length_map, List.length_range] at bound

/-- Once the byte reached is left behind, no frame was entered at the new one. -/
theorem Cursor.Orderly.here_moved (orderly : Orderly grammar line cursor)
    (frames : ∀ frame ∈ next.stack.frames, frame ∈ cursor.stack.frames ∨
      frame.enteredAt = some cursor.pos) (moves : cursor.pos < next.pos) : next.here = [] := by
  apply here_eq_nil
  intro here
  rcases frames next.stack.top List.mem_cons_self with old | new
  · have bound := orderly.past _ old next.pos here
    omega
  · rw [new] at here
    have same := Option.some.inj here
    omega

theorem enteredStack_frames (scanner : Scanner σ) (line : SourceLine) (cursor : Cursor)
    (found : Match) (id : RuleId) (rule : Spanning) :
    (enteredStack scanner line cursor found id rule).frames =
        (enteredStack scanner line cursor found id rule).top :: cursor.stack.frames ∧
      (enteredStack scanner line cursor found id rule).top.rule = id ∧
      (enteredStack scanner line cursor found id rule).top.enteredAt = some cursor.pos := by
  unfold enteredStack
  simp only
  split <;> exact ⟨rfl, rfl, rfl⟩

/-- Where no frame was entered at the byte reached, rules cannot be entered twice there. -/
theorem Cursor.Orderly.of_here_eq_nil (here : cursor.here = []) (inside : cursor.pos ≤ line.byteSize)
    (ordered : cursor.stack.frames.Pairwise fun upper lower =>
      ∀ byte, lower.enteredAt = some byte → ∃ later, upper.enteredAt = some later ∧ byte ≤ later)
    (past : ∀ frame ∈ cursor.stack.frames, ∀ byte, frame.enteredAt = some byte → byte ≤ cursor.pos)
    (bottom : bottomRule cursor.stack = some grammar.root) : Orderly grammar line cursor where
  inside := inside
  ordered := ordered
  past := past
  distinct := by
    rw [here]
    exact List.nodup_nil
  known := by
    rw [here]
    intro frame absurd
    cases absurd
  bottom := bottom

/-- Where no frame was entered on the line, all is in order. -/
theorem Cursor.Orderly.start (inside : cursor.pos ≤ line.byteSize)
    (unentered : ∀ frame ∈ cursor.stack.frames, frame.enteredAt = none)
    (bottom : bottomRule cursor.stack = some grammar.root) :
    Orderly grammar line cursor := by
  have here : cursor.here = [] := by
    apply here_eq_nil
    rw [unentered _ List.mem_cons_self]
    exact Option.some_ne_none _ |>.symm
  refine .of_here_eq_nil here inside ?_ ?_ bottom
  · apply List.pairwise_of_forall_mem_list
    intro upper _ lower member byte entered
    rw [unentered lower member] at entered
    cases entered
  · intro frame member byte entered
    rw [unentered frame member] at entered
    cases entered

/-- The root has no end, so there is a frame below one that is left. -/
theorem Cursor.Orderly.rest_ne_nil (orderly : Orderly grammar line cursor)
    (root : ∃ rule, grammar.rule grammar.root = .group rule)
    (region : ∃ region, grammar.rule cursor.stack.top.rule = .region region) :
    cursor.stack.rest ≠ [] := by
  intro below
  have bottom := orderly.bottom
  obtain ⟨region, isRegion⟩ := region
  obtain ⟨group, isGroup⟩ := root
  simp only [bottomRule, Stack.frames, below, List.getLast?_singleton, Option.map_some,
    Option.some.injEq] at bottom
  rw [bottom, isGroup] at isRegion
  cases isRegion

/-- Where the frame at the top was not entered, none below it was. -/
theorem Cursor.Orderly.below_elsewhere (orderly : Orderly grammar line cursor)
    (elsewhere : cursor.stack.top.enteredAt ≠ some cursor.pos) (below : frame ∈ cursor.stack.rest) :
    frame.enteredAt ≠ some cursor.pos := by
  intro entered
  obtain ⟨byte, above, le⟩ := List.rel_of_pairwise_cons orderly.ordered below _ entered
  have bound := orderly.past _ List.mem_cons_self byte above
  rw [above] at elsewhere
  exact elsewhere (congrArg some (by omega))

/-- Leaving a rule is progress: the cursor moves, or the frame was not entered here. -/
theorem Cursor.Orderly.left (orderly : Orderly grammar line cursor)
    (root : ∃ rule, grammar.rule grammar.root = .group rule)
    (fits : found.Fits grammar line cursor.stack) (leaves : found.target = .leave)
    (moves : cursor.pos < found.stop ∨ cursor.stack.top.enteredAt ≠ some cursor.pos)
    (stack : next.stack = cursor.stack.closing.pop) (pos : next.pos = max cursor.pos found.stop) :
    Orderly grammar line next ∧ Progress cursor next := by
  have nonempty := orderly.rest_ne_nil root (fits.leaves leaves)
  have frames : next.stack.frames = cursor.stack.rest := by
    cases below : cursor.stack.rest with
    | nil => exact absurd below nonempty
    | cons frame rest =>
      rw [stack]
      simp [Stack.closing, Stack.withContentScopes, Stack.pop, Stack.pop?, below, Stack.frames]
  have inherited : ∀ frame ∈ next.stack.frames, frame ∈ cursor.stack.frames := by
    rw [frames]
    exact fun frame member => List.mem_cons_of_mem _ member
  have stop := fits.stop
  have inside := orderly.inside
  have elsewhere (stays : next.pos = cursor.pos) :
      cursor.stack.top.enteredAt ≠ some cursor.pos := by
    rcases moves with ahead | elsewhere
    · omega
    · exact elsewhere
  have here : next.here = [] := by
    by_cases ahead : cursor.pos < next.pos
    · exact orderly.here_moved (fun frame member => .inl (inherited frame member)) ahead
    · have stays : next.pos = cursor.pos := by omega
      apply here_eq_nil
      rw [stays]
      apply orderly.below_elsewhere (elsewhere stays)
      rw [← frames]
      exact List.mem_cons_self
  refine ⟨.of_here_eq_nil here (by omega) ?_ ?_ ?_, .popped frames here fun stays =>
    here_eq_nil (elsewhere stays)⟩
  · rw [frames]
    exact (List.pairwise_cons.mp orderly.ordered).2
  · intro frame member byte entered
    have bound := orderly.past frame (inherited frame member) byte entered
    omega
  · rw [← orderly.bottom, bottomRule, bottomRule, frames, Stack.frames,
      List.getLast?_cons_of_ne_nil nonempty]

/-- Entering a rule is progress: the cursor moves, or the rule was not yet entered here. -/
theorem Cursor.Orderly.entered (orderly : Orderly grammar line cursor)
    (stop : found.stop ≤ line.byteSize) (known : next.stack.top.rule < grammar.rules.size)
    (frames : next.stack.frames = next.stack.top :: cursor.stack.frames)
    (entered : next.stack.top.enteredAt = some cursor.pos)
    (moves : cursor.pos < found.stop ∨ cursor.stack.hasEntered next.stack.top = false)
    (pos : next.pos = max cursor.pos found.stop) :
    Orderly grammar line next ∧ Progress cursor next := by
  have inside := orderly.inside
  have ahead (moves : next.pos ≠ cursor.pos) : next.here = [] := by
    apply here_eq_nil
    rw [entered]
    intro same
    exact moves (Option.some.inj same).symm
  have stays (stays : next.pos = cursor.pos) : next.here = next.stack.top :: cursor.here ∧
      next.stack.top.rule ∉ cursor.here.map Frame.rule := by
    have fresh : cursor.stack.hasEntered next.stack.top = false := by
      rcases moves with ahead | fresh
      · omega
      · exact fresh
    constructor
    · rw [Cursor.here, frames, stays, List.takeWhile_cons_of_pos (by simp [entered])]
      rfl
    · intro member
      obtain ⟨frame, held, same⟩ := List.mem_map.mp member
      rw [Stack.hasEntered, entered, List.any_eq_false] at fresh
      exact fresh frame held (by simp [same])
  refine ⟨⟨by omega, ?_, ?_, ?_, ?_, ?_⟩, .pushed frames stays ahead⟩
  · rw [frames, List.pairwise_cons]
    exact ⟨fun frame member byte held =>
      ⟨cursor.pos, entered, orderly.past frame member byte held⟩, orderly.ordered⟩
  · intro frame member byte held
    rw [frames] at member
    rcases List.mem_cons.mp member with rfl | old
    · rw [entered] at held
      have same := Option.some.inj held
      omega
    · have bound := orderly.past frame old byte held
      omega
  · by_cases same : next.pos = cursor.pos
    · rw [(stays same).1, List.map_cons, List.nodup_cons]
      exact ⟨(stays same).2, orderly.distinct⟩
    · rw [ahead same]
      exact List.nodup_nil
  · intro frame member
    by_cases same : next.pos = cursor.pos
    · rw [(stays same).1] at member
      rcases List.mem_cons.mp member with rfl | old
      · exact known
      · exact orderly.known frame old
    · rw [ahead same] at member
      cases member
  · rw [← orderly.bottom, bottomRule, bottomRule, frames,
      List.getLast?_cons_of_ne_nil (by simp [Stack.frames])]

/-- A match within the line that is not empty is progress. -/
theorem Cursor.Orderly.matched (orderly : Orderly grammar line cursor)
    (stop : found.stop ≤ line.byteSize) (moves : cursor.pos < found.stop)
    (stack : next.stack = cursor.stack) (pos : next.pos = max cursor.pos found.stop) :
    Orderly grammar line next ∧ Progress cursor next := by
  have inherited : ∀ frame ∈ next.stack.frames, frame ∈ cursor.stack.frames := by
    rw [stack]
    exact fun frame member => member
  have ahead : cursor.pos < next.pos := by omega
  have inside := orderly.inside
  have here := orderly.here_moved (fun frame member => .inl (inherited frame member)) ahead
  refine ⟨.of_here_eq_nil here (by omega) ?_ ?_ ?_, .passed stack ahead here⟩
  · rw [stack]
    exact orderly.ordered
  · intro frame member byte entered
    have bound := orderly.past frame (inherited frame member) byte entered
    omega
  · rw [stack]
    exact orderly.bottom

/-- A step that goes on makes progress and leaves an orderly cursor. -/
theorem Cursor.Orderly.step (orderly : Orderly scanner.grammar line cursor)
    (root : ∃ rule, scanner.grammar.rule scanner.grammar.root = .group rule)
    (fits : ∀ found, answer = some found → found.Fits scanner.grammar line cursor.stack)
    (course : Course scanner line cursor answer (.next next work)) :
    Orderly scanner.grammar line next ∧ Progress cursor next := by
  cases course with
  | left leaves moves =>
    exact orderly.left root (fits _ rfl) leaves moves (stack_advance ..) (pos_advance ..)
  | @entered rule found id enters spans moves =>
    obtain ⟨frames, sameRule, entered⟩ := enteredStack_frames scanner line cursor found id rule
    have stack := stack_advance { cursor with
      stack := enteredStack scanner line cursor found id rule, anchor := some found.stop } found.stop
    refine orderly.entered (fits _ rfl).stop ?_ ?_ ?_ ?_ (pos_advance ..)
    · have known := (fits _ rfl).enters id enters
      rw [stack]
      simpa only [sameRule] using known
    · rw [stack]
      exact frames
    · rw [stack]
      exact entered
    · rw [stack]
      exact moves
  | matched enters single moves =>
    exact orderly.matched (fits _ rfl).stop moves (stack_advance ..) (pos_advance ..)

/-- A bound on the steps that are left: each frame can be left, each rule can be
entered at the byte reached and left again, and so at each byte that is left. -/
def potential (grammar : CompiledGrammar) (line : SourceLine) (cursor : Cursor) : Nat :=
  cursor.stack.frames.length + 2 * (grammar.rules.size - cursor.here.length) +
    (line.byteSize - cursor.pos) * (2 * grammar.rules.size + 2)

/-- A scan never goes back. -/
theorem Course.pos_le (course : Course scanner line cursor answer (.next next work)) :
    cursor.pos ≤ next.pos := by
  cases course with
  | left leaves moves =>
    rw [Cursor.pos_advance]
    exact Nat.le_max_left ..
  | entered enters spans moves =>
    rw [Cursor.pos_advance]
    exact Nat.le_max_left ..
  | matched enters single moves =>
    rw [Cursor.pos_advance]
    exact Nat.le_max_left ..

/-- Progress lowers the potential, so there are only so many steps. -/
theorem Cursor.Progress.potential_lt (progress : Progress cursor next)
    (later : cursor.pos ≤ next.pos) (orderly : Orderly grammar line next) :
    potential grammar line next < potential grammar line cursor := by
  have inside := orderly.inside
  have bound := orderly.here_le
  have ahead (moves : next.pos ≠ cursor.pos) :
      (line.byteSize - next.pos) * (2 * grammar.rules.size + 2) + (2 * grammar.rules.size + 2) ≤
        (line.byteSize - cursor.pos) * (2 * grammar.rules.size + 2) := by
    rw [← Nat.succ_mul]
    apply Nat.mul_le_mul_right
    omega
  have depth : cursor.stack.frames.length = cursor.stack.rest.length + 1 := rfl
  unfold potential
  cases progress with
  | popped frames here before =>
    rw [frames, here, depth, List.length_nil]
    by_cases stays : next.pos = cursor.pos
    · rw [before stays, stays, List.length_nil]
      omega
    · have gained := ahead stays
      omega
  | pushed frames stays moves =>
    rw [frames, List.length_cons]
    by_cases same : next.pos = cursor.pos
    · rw [(stays same).1, List.length_cons] at bound ⊢
      rw [same]
      omega
    · have gained := ahead same
      rw [moves same, List.length_nil]
      omega
  | passed stack moves here =>
    have gained := ahead (by omega)
    rw [stack, here, List.length_nil]
    omega

theorem potential_lt_stepBound (scanner : Scanner σ) (line : SourceLine) (cursor : Cursor) :
    potential scanner.grammar line cursor < stepBound scanner line cursor.stack := by
  unfold potential stepBound
  generalize scanner.grammar.rules.size = rules
  have product : 2 * (line.byteSize + 1) * (rules + 2) =
      line.byteSize * (2 * rules + 2) + 2 * line.byteSize + 2 * rules + 4 := by grind
  have part : (line.byteSize - cursor.pos) * (2 * rules + 2) ≤ line.byteSize * (2 * rules + 2) :=
    Nat.mul_le_mul_right _ (Nat.sub_le ..)
  omega

/-- A change of the stack. -/
inductive Move where
  | pop
  | push (rule : RuleId)
  deriving Repr, DecidableEq

/-- The change from one stack to another. -/
def Move.between (before after : Stack) : List Move :=
  if before.frames.length < after.frames.length then [.push after.top.rule]
  else if after.frames.length < before.frames.length then [.pop]
  else []

/-- The changes from a stack to one after the other. -/
def movesFrom : Stack → List Cursor → List Move
  | _, [] => []
  | before, next :: visited => Move.between before next.stack ++ movesFrom next.stack visited

/-- Steps of a scan that go on, one after the other, with the cursors they lead to. -/
inductive Iterates (scanner : Scanner σ) (rescan : Rescan σ) (line : SourceLine) :
    Cursor → Work σ → List Cursor → Cursor → Work σ → Prop where
  | none (before : Cursor) (work : Work σ) : Iterates scanner rescan line before work [] before work
  | next (taken : step scanner rescan line before work = .next after middle)
    (rest : Iterates scanner rescan line after middle visited last final) :
    Iterates scanner rescan line before work (after :: visited) last final

theorem Cursor.Progress.between_popped (frames : next.stack.frames = cursor.stack.rest) :
    Move.between cursor.stack next.stack = [.pop] := by
  have depth : cursor.stack.frames.length = cursor.stack.rest.length + 1 := rfl
  rw [Move.between, frames, depth, if_neg (by omega), if_pos (by omega)]

theorem Cursor.Progress.between_pushed
    (frames : next.stack.frames = next.stack.top :: cursor.stack.frames) :
    Move.between cursor.stack next.stack = [.push next.stack.top.rule] := by
  rw [Move.between, frames, List.length_cons, if_pos (by omega)]

/-- A property of the work of a scan that outlasts every step, under which the
matches found are such that a step can be taken, and the bound on the steps is
not met by the step itself. -/
structure Guards (scanner : Scanner σ) (rescan : Rescan σ) (line : SourceLine)
    (Good : Work σ → Prop) : Prop where
  root : ∃ rule, scanner.grammar.rule scanner.grammar.root = .group rule
  fits : ∀ (cursor : Cursor) work found, Good work →
    (scanner.finder.next line cursor.pos cursor.flavour cursor.stack work.finder).1 = some found →
    found.Fits scanner.grammar line cursor.stack
  next : ∀ cursor work next middle, Good work →
    step scanner rescan line cursor work = .next next middle → Good middle
  done : ∀ cursor work stack final, Good work →
    step scanner rescan line cursor work = .done stack final → final.outOfSteps = false

namespace Guards

variable {rescan : Rescan σ} {Good : Work σ → Prop} {work middle final : Work σ}

theorem progress (guards : Guards scanner rescan line Good) (good : Good work)
    (orderly : cursor.Orderly scanner.grammar line)
    (taken : step scanner rescan line cursor work = .next next middle) :
    next.Orderly scanner.grammar line ∧ cursor.Progress next ∧ cursor.pos ≤ next.pos := by
  have course := step_course scanner rescan line cursor work
  rw [taken] at course
  obtain ⟨left, progress⟩ := orderly.step guards.root (guards.fits cursor work · good) course
  exact ⟨left, progress, course.pos_le⟩

/-- Steps that go on, one after the other, lead from orderly cursors to orderly cursors. -/
theorem reached (guards : Guards scanner rescan line Good) (good : Good work)
    (orderly : cursor.Orderly scanner.grammar line)
    (iterates : Iterates scanner rescan line cursor work visited last final) :
    Good final ∧ last.Orderly scanner.grammar line := by
  induction iterates with
  | none => exact ⟨good, orderly⟩
  | next taken rest ih =>
    exact ih (guards.next _ _ _ _ good taken) (guards.progress good orderly taken).1

/-- There are fewer steps that go on than the bound says. -/
theorem length_le (guards : Guards scanner rescan line Good) (good : Good work)
    (orderly : cursor.Orderly scanner.grammar line)
    (iterates : Iterates scanner rescan line cursor work visited last final) :
    visited.length + potential scanner.grammar line last ≤ potential scanner.grammar line cursor := by
  induction iterates with
  | none => exact Nat.le_of_eq (Nat.zero_add _)
  | next taken rest ih =>
    obtain ⟨left, progress, later⟩ := guards.progress good orderly taken
    have fewer := progress.potential_lt later left
    have bound := ih (guards.next _ _ _ _ good taken) left
    rw [List.length_cons]
    omega

/-- A scan with more steps than the bound says comes to an end by itself. -/
theorem scanFrom_ends (guards : Guards scanner rescan line Good) (good : Good work)
    (orderly : cursor.Orderly scanner.grammar line) (steps : Nat)
    (enough : potential scanner.grammar line cursor < steps) :
    ∃ visited last final,
      Iterates scanner rescan line cursor work visited last final ∧
      step scanner rescan line last final =
        .done (scanFrom scanner rescan (fun _ => false) line steps cursor work).stack
          (scanFrom scanner rescan (fun _ => false) line steps cursor work).work ∧
      (scanFrom scanner rescan (fun _ => false) line steps cursor work).work.outOfSteps = false := by
  induction steps generalizing cursor work with
  | zero => omega
  | succ steps ih =>
    rw [scanFrom, if_neg Bool.false_ne_true]
    cases taken : step scanner rescan line cursor work with
    | next next middle =>
      obtain ⟨left, progress, later⟩ := guards.progress good orderly taken
      have fewer := progress.potential_lt later left
      obtain ⟨visited, last, final, rest, ended⟩ :=
        ih (guards.next _ _ _ _ good taken) left (by omega)
      exact ⟨next :: visited, last, final, .next taken rest, ended⟩
    | done stack final =>
      exact ⟨[], cursor, work, .none cursor work, taken, guards.done _ _ _ _ good taken⟩

/-- While a scan stays at a byte it leaves rules first and enters rules then,
none of which was entered there before. -/
theorem moves (guards : Guards scanner rescan line Good) (good : Good work)
    (orderly : cursor.Orderly scanner.grammar line)
    (iterates : Iterates scanner rescan line cursor work visited last final)
    (stays : ∀ next ∈ visited, next.pos = cursor.pos) :
    ∃ (pops : Nat) (pushes : List RuleId),
      movesFrom cursor.stack visited = List.replicate pops .pop ++ pushes.map .push ∧
      pops ≤ cursor.stack.frames.length ∧ pushes.Nodup ∧
      (∀ id ∈ pushes, id ∉ cursor.here.map Frame.rule) ∧ (cursor.here ≠ [] → pops = 0) := by
  induction iterates with
  | none => exact ⟨0, [], rfl, Nat.zero_le _, List.nodup_nil, by simp, fun _ => rfl⟩
  | @next cursor work next middle visited last final taken rest ih =>
    obtain ⟨left, progress, later⟩ := guards.progress good orderly taken
    have samePos := stays next List.mem_cons_self
    obtain ⟨pops, pushes, split, bound, distinct, fresh, popsFirst⟩ :=
      ih (guards.next _ _ _ _ good taken) left fun other member => by
        rw [stays other (List.mem_cons_of_mem _ member), samePos]
    rw [movesFrom, split]
    cases progress with
    | popped frames here before =>
      rw [Cursor.Progress.between_popped frames]
      refine ⟨pops + 1, pushes, rfl, ?_, distinct, ?_, ?_⟩
      · rw [frames] at bound
        exact Nat.succ_le_succ bound
      · simp [before samePos]
      · exact fun entered => absurd (before samePos) entered
    | pushed frames stays' moves =>
      obtain ⟨here, new⟩ := stays' samePos
      have noPops : pops = 0 := popsFirst (by simp [here])
      rw [Cursor.Progress.between_pushed frames, noPops]
      refine ⟨0, next.stack.top.rule :: pushes, rfl, Nat.zero_le _, ?_, ?_, fun _ => rfl⟩
      · refine List.nodup_cons.mpr ⟨fun member => ?_, distinct⟩
        exact fresh _ member (by simp [here])
      · intro id member
        rcases List.mem_cons.mp member with rfl | later
        · exact new
        · intro old
          apply fresh id later
          rw [here, List.map_cons]
          exact List.mem_cons_of_mem _ old
    | passed stack moves here => omega

end Guards
end ScopeLexer.Line
