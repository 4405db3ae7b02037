import ScopeLexer.Stack

/-!
The depths and hashes that frames keep. Whatever has been done to a stack, each frame keeps the number of
frames up to it and the hash that is made of them from the bottom up, although some operations copy these
and others make them anew. So two stacks have the same rules and ends exactly if they compare equal, however
frames are hashed: the hash only tells stacks apart that differ. Nor does it matter which frames two stacks
share: where a comparison meets shared frames it can stop, and where a line is forgotten they can be kept.
-/
namespace ScopeLexer

open Grammar

namespace Frame

/-- The rule of a frame, and its end. -/
def ruleAndEnding (frame : Frame) : RuleId × Option String := (frame.rule, frame.ending)

/-- The hash of some frames, made again from the bottom up. -/
def rehash (hash : FrameHash) : List Frame → Option UInt64
  | [] => none
  | frame :: below => some (hash (rehash hash below) (below.length + 1) frame.rule frame.ending)

/-- Each of some frames keeps the number of frames up to it, and the hash of these. -/
def Counted (hash : FrameHash) (frames : List Frame) : Prop :=
  ∀ frame below, frame :: below <:+ frames →
    frame.depth = below.length + 1 ∧ some frame.digest = rehash hash (frame :: below)

variable {hash : FrameHash} {frame : Frame} {below lefts rights frames : List Frame}

theorem counted_nil (hash : FrameHash) : Counted hash [] := by
  intro frame below inside
  cases List.suffix_nil.mp inside

theorem counted_cons : Counted hash (frame :: below) ↔
    (frame.depth = below.length + 1 ∧ some frame.digest = rehash hash (frame :: below)) ∧
      Counted hash below := by
  constructor
  · intro counted
    refine ⟨counted frame below (List.suffix_refl _), fun other lower inside => ?_⟩
    exact counted other lower (inside.trans (List.suffix_cons frame below))
  · rintro ⟨own, counted⟩ other lower inside
    rcases List.suffix_cons_iff.mp inside with same | inside
    · cases same
      exact own
    · exact counted other lower inside

/-- The frame at the top keeps the hash of them all. -/
theorem Counted.head?_digest (counted : Counted hash frames) :
    frames.head?.map Frame.digest = rehash hash frames := by
  cases frames with
  | nil => rfl
  | cons frame below => exact (counted_cons.mp counted).1.2

theorem Counted.head?_depth (counted : Counted hash frames) :
    (frames.head?.map Frame.depth).getD 0 = frames.length := by
  cases frames with
  | nil => rfl
  | cons frame below => exact (counted_cons.mp counted).1.1

/-- The hash is made of rules and ends only. -/
theorem rehash_congr (same : lefts.map ruleAndEnding = rights.map ruleAndEnding) :
    rehash hash lefts = rehash hash rights := by
  induction lefts generalizing rights with
  | nil =>
    obtain rfl := List.map_eq_nil_iff.mp same.symm
    rfl
  | cons left lefts ih =>
    cases rights with
    | nil => cases same
    | cons right rights =>
      obtain ⟨own, others⟩ := List.cons.inj same
      obtain ⟨rule, ending⟩ := Prod.mk.inj own
      have lengths : lefts.length = rights.length := by simpa using congrArg List.length others
      rw [rehash, rehash, ih others, rule, ending, lengths]

/-- Frames that keep the same depths and hashes, with the same rules and ends, are counted alike. -/
theorem Counted.map (counted : Counted hash frames) {change : Frame → Frame}
    (depth : ∀ frame, (change frame).depth = frame.depth)
    (digest : ∀ frame, (change frame).digest = frame.digest)
    (kept : ∀ frame, (change frame).ruleAndEnding = frame.ruleAndEnding) :
    Counted hash (frames.map change) := by
  induction frames with
  | nil => exact counted
  | cons frame below ih =>
    obtain ⟨⟨ownDepth, ownDigest⟩, counted⟩ := counted_cons.mp counted
    have same : ((frame :: below).map change).map ruleAndEnding =
        (frame :: below).map ruleAndEnding := by
      simp only [List.map_map, Function.comp_def, kept]
    refine counted_cons.mpr ⟨⟨?_, ?_⟩, ih counted⟩
    · rw [depth, ownDepth, List.length_map]
    · rw [digest, ownDigest]
      exact (rehash_congr same).symm

end Frame

namespace Stack

open ScopeLexer.Frame

/-- The stacks that the operations make, frames being hashed in some way. -/
inductive Built (hash : FrameHash) : Stack → Prop where
  | root (rule : RuleId) (scopes : ScopePath) : Built hash (rootWith hash rule scopes)
  | push (built : Built hash stack) (rule : RuleId) (enteredAt anchor : Option Nat)
    (tookLineEnd : Bool) (scopes : ScopePath) :
    Built hash (stack.pushWith hash rule enteredAt anchor tookLineEnd scopes)
  | pop (built : Built hash stack) (left : stack.pop? = some below) : Built hash below
  | withContentScopes (built : Built hash stack) (scopes : ScopePath) :
    Built hash (stack.withContentScopes scopes)
  | withEnding (built : Built hash stack) (ending : String) :
    Built hash (stack.withEndingWith hash ending)
  | forgetLine (built : Built hash stack) : Built hash stack.forgetLine

/-- The stack with its top frame made anew, its depth and hash told by the frame below it. -/
def renewed (hash : FrameHash) (stack : Stack) : Stack :=
  let depth := (stack.rest.head?.map Frame.depth).getD 0 + 1
  { stack with
    top := { stack.top with
      depth
      digest := hash (stack.rest.head?.map Frame.digest) depth stack.top.rule stack.top.ending } }

variable {hash : FrameHash} {stack left right : Stack}

/-- Every operation leaves the frames counted. -/
theorem Built.counted (built : Built hash stack) : Counted hash stack.frames := by
  induction built with
  | root rule scopes => exact counted_cons.mpr ⟨⟨rfl, rfl⟩, counted_nil hash⟩
  | @push stack built rule enteredAt anchor tookLineEnd scopes ih =>
    have top := (counted_cons.mp ih).1
    refine counted_cons.mpr ⟨⟨congrArg (· + 1) top.1, ?_⟩, ih⟩
    show some (hash (some stack.top.digest) (stack.top.depth + 1) rule none) =
      some (hash (rehash hash stack.frames) (stack.frames.length + 1) rule none)
    rw [top.2, top.1]
    rfl
  | @pop stack below built left ih =>
    obtain ⟨top, rest⟩ := stack
    cases rest with
    | nil => cases left
    | cons frame rest =>
      cases left
      exact (counted_cons.mp ih).2
  | withContentScopes built scopes ih =>
    obtain ⟨⟨depth, digest⟩, counted⟩ := counted_cons.mp ih
    exact counted_cons.mpr ⟨⟨depth, digest⟩, counted⟩
  | withEnding built ending ih =>
    obtain ⟨⟨depth, -⟩, counted⟩ := counted_cons.mp ih
    refine counted_cons.mpr ⟨⟨depth, ?_⟩, counted⟩
    simp only [withEndingWith, rehash, counted.head?_digest, depth]
  | @forgetLine stack built ih =>
    have kept : Counted hash (stack.frames.map forgetFrame) :=
      ih.map (fun _ => rfl) (fun _ => rfl) fun _ => rfl
    exact kept

/-- Making the top frame anew changes nothing. -/
theorem Built.renewed_eq (built : Built hash stack) : stack.renewed hash = stack := by
  obtain ⟨⟨depth, digest⟩, counted⟩ := counted_cons.mp built.counted
  have same : (stack.rest.head?.map Frame.depth).getD 0 + 1 = stack.top.depth := by
    rw [counted.head?_depth, depth]
  have hashed : hash (stack.rest.head?.map Frame.digest) stack.top.depth stack.top.rule
      stack.top.ending = stack.top.digest := by
    rw [counted.head?_digest, depth]
    exact (Option.some.inj digest).symm
  simp only [renewed, same, hashed]

section Comparison

variable {lefts rights : List Frame}

/-- Frames of the same shapes have the same rules and ends. -/
theorem ruleAndEnding_of_sameShapes (same : sameShapes lefts rights = true) :
    lefts.map ruleAndEnding = rights.map ruleAndEnding := by
  induction lefts generalizing rights with
  | nil =>
    cases rights with
    | nil => rfl
    | cons right rights => cases same
  | cons left lefts ih =>
    cases rights with
    | nil => cases same
    | cons right rights =>
      obtain ⟨shape, others⟩ := Bool.and_eq_true_iff.mp same
      obtain ⟨-, -, rule, ending⟩ := sameShape_iff.mp shape
      rw [List.map_cons, List.map_cons, ih others, ruleAndEnding, ruleAndEnding, rule, ending]

/-- Counted frames with the same rules and ends have the same depths and hashes as well. -/
theorem sameShapes_of_counted (first : Counted hash lefts) (second : Counted hash rights)
    (same : lefts.map ruleAndEnding = rights.map ruleAndEnding) : sameShapes lefts rights = true := by
  induction lefts generalizing rights with
  | nil =>
    obtain rfl := List.map_eq_nil_iff.mp same.symm
    rfl
  | cons left lefts ih =>
    cases rights with
    | nil => cases same
    | cons right rights =>
      obtain ⟨⟨leftDepth, leftDigest⟩, first⟩ := counted_cons.mp first
      obtain ⟨⟨rightDepth, rightDigest⟩, second⟩ := counted_cons.mp second
      obtain ⟨own, others⟩ := List.cons.inj same
      obtain ⟨rule, ending⟩ := Prod.mk.inj own
      have digest : left.digest = right.digest :=
        Option.some.inj (leftDigest.trans ((rehash_congr same).trans rightDigest.symm))
      have lengths : lefts.length = rights.length := by simpa using congrArg List.length others
      have depth : left.depth = right.depth := by rw [leftDepth, rightDepth, lengths]
      exact Bool.and_eq_true_iff.mpr
        ⟨sameShape_iff.mpr ⟨digest, depth, rule, ending⟩, ih first second others⟩

theorem sameShapes_self (frames : List Frame) : sameShapes frames frames = true := by
  induction frames with
  | nil => rfl
  | cons frame below ih => exact Bool.and_eq_true_iff.mpr ⟨sameShape_iff.mpr ⟨rfl, rfl, rfl, rfl⟩, ih⟩

/-- Stacks that compare equal have the same hash. -/
theorem digest_of_equivalent (same : left.equivalent right = true) :
    left.top.digest = right.top.digest := by
  obtain ⟨shapes, -⟩ := Bool.and_eq_true_iff.mp same
  exact (sameShape_iff.mp (Bool.and_eq_true_iff.mp shapes).1).1

theorem forgetLine_equivalent (stack : Stack) : stack.forgetLine.equivalent stack = true := by
  have shapes (frames : List Frame) : sameShapes (frames.map forgetFrame) frames = true := by
    induction frames with
    | nil => rfl
    | cons frame below ih =>
      exact Bool.and_eq_true_iff.mpr ⟨sameShape_iff.mpr ⟨rfl, rfl, rfl, rfl⟩, ih⟩
  exact Bool.and_eq_true_iff.mpr ⟨shapes stack.frames, beq_self_eq_true _⟩

theorem forgetLine_positions (member : frame ∈ stack.forgetLine.frames) :
    frame.enteredAt = none ∧ frame.anchor = none := by
  have member : frame ∈ stack.frames.map forgetFrame := member
  obtain ⟨before, -, rfl⟩ := List.mem_map.mp member
  exact ⟨rfl, rfl⟩

end Comparison

section Sharing

/-- Whether frames have the same shape, one by one, where `shared` tells of some that they are the same
frames: those are not looked into. -/
def sameShapesSharing (shared : List Frame → List Frame → Bool) : List Frame → List Frame → Bool
  | [], [] => true
  | left :: lefts, right :: rights =>
    shared (left :: lefts) (right :: rights) ||
      (sameShape left right && sameShapesSharing shared lefts rights)
  | _, _ => false

/-- The frames without what belongs to one line only, made from the bottom up. A frame that has nothing
of the kind stays as it is, if `shared` tells that the frames below it have stayed. -/
def forgetSharing (shared : List Frame → List Frame → Bool) : List Frame → List Frame
  | [] => []
  | frame :: below =>
    if shared (forgetSharing shared below) below && frame.enteredAt.isNone && frame.anchor.isNone then
      frame :: below
    else forgetFrame frame :: forgetSharing shared below

variable {shared : List Frame → List Frame → Bool}

/-- Stopping at what two stacks share does not change whether they have the same shapes. -/
theorem sameShapesSharing_eq (honest : ∀ lefts rights, shared lefts rights = true → lefts = rights)
    (lefts rights : List Frame) : sameShapesSharing shared lefts rights = sameShapes lefts rights := by
  fun_induction sameShapesSharing shared lefts rights with
  | case1 => rfl
  | case2 left lefts right rights ih =>
    rw [ih, sameShapes]
    cases known : shared (left :: lefts) (right :: rights) with
    | false => rw [Bool.false_or]
    | true =>
      cases honest _ _ known
      exact (sameShapes_self (left :: lefts)).symm
  | case3 lefts rights _ _ => simp [sameShapes]

/-- Stopping at what is shared does not change what is forgotten. -/
theorem forgetSharing_eq (honest : ∀ lefts rights, shared lefts rights = true → lefts = rights)
    (frames : List Frame) : forgetSharing shared frames = frames.map forgetFrame := by
  induction frames with
  | nil => rfl
  | cons frame below ih =>
    rw [forgetSharing, ih, List.map_cons]
    split
    next clean =>
      simp only [Bool.and_eq_true, Option.isNone_iff_eq_none] at clean
      obtain ⟨⟨known, enteredAt⟩, anchor⟩ := clean
      have same : forgetFrame frame = frame := by
        cases frame
        simp_all [forgetFrame]
      rw [honest _ _ known, same]
    next => rfl

end Sharing

/-- What holds of all stacks that the operations make, however frames are hashed. Each frame keeps the
number of frames up to it and their hash, and making one anew changes nothing. Two stacks compare equal in
their rules and ends exactly if these are the same, frame by frame; equal stacks have equal hashes. A stack
whose line is forgotten equals what it was, has no position of the line left, and does not change when that
is done again. Comparing and forgetting come to the same if frames that are known to be shared are not
looked into. -/
theorem built_stacks_keep_count (first : Built hash left) (second : Built hash right) :
    (∀ frame below, frame :: below <:+ left.frames →
      frame.depth = (frame :: below).length ∧ some frame.digest = rehash hash (frame :: below)) ∧
    left.renewed hash = left ∧
    (left.structurallyEqual right = true ↔
      left.frames.map ruleAndEnding = right.frames.map ruleAndEnding) ∧
    (left.equivalent right = true → left.top.digest = right.top.digest) ∧
    left.forgetLine.equivalent left = true ∧
    (∀ frame ∈ left.forgetLine.frames, frame.enteredAt = none ∧ frame.anchor = none) ∧
    left.forgetLine.forgetLine = left.forgetLine ∧
    ∀ shared : List Frame → List Frame → Bool,
      (∀ lefts rights, shared lefts rights = true → lefts = rights) →
        sameShapesSharing shared left.frames right.frames = left.structurallyEqual right ∧
          forgetSharing shared left.frames = left.forgetLine.frames := by
  refine ⟨first.counted, first.renewed_eq, ?_, digest_of_equivalent, forgetLine_equivalent left,
    fun frame => forgetLine_positions, forgetLine_forgetLine left, fun shared honest => ?_⟩
  · exact ⟨ruleAndEnding_of_sameShapes, sameShapes_of_counted first.counted second.counted⟩
  · exact ⟨sameShapesSharing_eq honest _ _, forgetSharing_eq honest _⟩

/-- Two regions with the same end of their own, entered at different places: they have the same hash, and
compare equal once the line is forgotten. -/
theorem built_stacks_keep_count_regions :
    let scopes : ScopePath := .root ⟨"source.x"⟩ default
    let early := ((root 0 scopes).push 3 (some 0) none false scopes).withEnding "EOF"
    let late := ((root 0 scopes).push 3 (some 4) (some 5) false scopes).withEnding "EOF"
    Built frameDigest early ∧ Built frameDigest late ∧ early ≠ late ∧
      early.structurallyEqual late = true ∧ early.top.digest = late.top.digest ∧
      late.top.depth = 2 ∧ late.forgetLine.equivalent late = true := by
  intro scopes early late
  have ground : Built frameDigest (root 0 scopes) := .root 0 scopes
  have first : Built frameDigest early := (ground.push 3 (some 0) none false scopes).withEnding "EOF"
  have second : Built frameDigest late :=
    (ground.push 3 (some 4) (some 5) false scopes).withEnding "EOF"
  obtain ⟨-, -, compared, hashed, -⟩ := built_stacks_keep_count first second
  obtain ⟨counted, -, -, -, forgotten, -⟩ := built_stacks_keep_count second first
  exact ⟨first, second, by decide, compared.mpr rfl, hashed (by decide),
    (counted _ _ (List.suffix_refl _)).1, forgotten⟩

end Stack
end ScopeLexer
