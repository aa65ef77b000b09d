import Mathlib.Data.List.Perm.Subperm
import Reckoner.Proofs.Reachable

/-!
The stack under the standard operators.

Between two groups the stack holds a segment: the operators that wait, one on top of
the other, for an operand inside the same parentheses. A left-associative operator
sets its threshold one above its own power, and folds whatever waits higher than that
power before it is pushed. So the thresholds of a segment rise, and every threshold of
such operators occurs once at most. Operators in front of operands, and `**`, wait at
a threshold above all these, and only they can pile up.

* `Terraced` — the shape of such a stack, read from the top.
* `Terraced.step`, `Reaches.terraced` — every step keeps it, so every state has it.
* `Terraced.length_le` — the depth is bounded by the groups that are open and by the
  operators that pile up.
* `stack_of_reaches_standard` — what this says of the segments of a stack.
-/

namespace Reckoner

/-! ### Powers of the standard operators -/

/-- The thresholds that the left-associative standard operators set. -/
def Power.leftAssociative : List Power :=
  [2, 4, 6, 8, 10, 12]

theorem Power.bounds_of_mem_leftAssociative :
    ∀ threshold ∈ leftAssociative, group < threshold ∧ threshold < 13 := by
  decide

/-- Every standard operator between operands but `**` sets a threshold one above its power. -/
theorem Table.right_of_mem_binary_standard :
    ∀ entry ∈ standard.binary, entry.symbol = "**" ∧ entry.right = 13 ∨
      entry.symbol ≠ "**" ∧ entry.right = entry.left + 1 ∧ entry.right ∈ Power.leftAssociative := by
  decide

theorem Table.right_of_mem_unary_standard : ∀ entry ∈ standard.unary, entry.right = 13 := by
  decide

namespace Frames

/-! ### Frames of the standard operators -/

namespace Frame

/-- Whether the frame is that of an operator in front of an operand, or of `**`. -/
def pilesUp (frame : Frame) : Bool :=
  match frame.pending with
  | .unary _ => true
  | .binary operator _ => operator == "**"
  | .root | .paren _ => false

/-- The frame is one that a standard operator pushes. -/
structure Standard (frame : Frame) : Prop where
  isOperator : frame.pending.isOperator = true
  threshold : frame.pilesUp = true ∧ frame.threshold = 13 ∨
    frame.pilesUp = false ∧ frame.threshold ∈ Power.leftAssociative

theorem Standard.bounds {frame : Frame} (h : frame.Standard) :
    Power.group < frame.threshold ∧ frame.threshold ≤ 13 := by
  rcases h.threshold with ⟨-, heq⟩ | ⟨-, hmem⟩
  · rw [heq]
    exact ⟨by decide, Int.le_refl 13⟩
  · obtain ⟨hgroup, hlt⟩ := Power.bounds_of_mem_leftAssociative _ hmem
    exact ⟨hgroup, Int.le_of_lt hlt⟩

/-- The threshold of a frame is not below that of an older one, and above it as long as it is that
of a left-associative operator. -/
def Rises (newer older : Frame) : Prop :=
  older.threshold ≤ newer.threshold ∧ (newer.threshold < 13 → older.threshold < newer.threshold)

end Frame

/-- The frames that wait below the threshold of operators that pile up. -/
def low (frames : List Frame) : List Frame :=
  frames.filter (·.threshold < 13)

/-- Where thresholds rise, each of the six lower ones occurs once at most. -/
theorem length_low_le {frames : List Frame} (hrises : frames.Pairwise Frame.Rises)
    (hstandard : ∀ frame ∈ frames, frame.Standard) : (low frames).length ≤ 6 := by
  have hlow : ∀ frame ∈ low frames, frame ∈ frames ∧ frame.threshold < 13 := by
    intro frame hmem
    simpa [low] using hmem
  have hnodup : ((low frames).map (·.threshold)).Nodup := by
    apply List.pairwise_map.mpr
    refine (hrises.filter _).imp_of_mem ?_
    intro newer older hnewer _ hrise
    exact Int.ne_of_gt (hrise.2 (hlow newer hnewer).2)
  have hsubset : (low frames).map (·.threshold) ⊆ Power.leftAssociative := by
    intro threshold hmem
    obtain ⟨frame, hframe, rfl⟩ := List.mem_map.mp hmem
    obtain ⟨hframe, hlt⟩ := hlow frame hframe
    rcases (hstandard frame hframe).threshold with ⟨-, heq⟩ | ⟨-, hmem⟩
    · exact absurd heq (Int.ne_of_lt hlt)
    · exact hmem
  have hlength := (hnodup.subperm hsubset).length_le
  rwa [List.length_map] at hlength

/-! ### Terraced stacks -/

/-- A stack of frames of standard operators above groups and the whole input, where the threshold
of each operator rises over those in its own group. -/
inductive Terraced : List Frame → Prop where
  | root : Terraced [⟨.base, .root⟩]
  | paren (start : Nat) {below : List Frame} :
      Terraced below → Terraced (⟨.group, .paren start⟩ :: below)
  | operator {frame : Frame} {below : List Frame} :
      frame.Standard → (∀ older ∈ group below, frame.Rises older) → Terraced below →
      Terraced (frame :: below)

theorem group_operator {frame : Frame} (hop : frame.pending.isOperator = true)
    (below : List Frame) : group (frame :: below) = frame :: group below := by
  simp [group, hop]

namespace Terraced

variable {stack : List Frame}

/-- In the innermost group, thresholds rise. -/
theorem rises (h : Terraced stack) : (group stack).Pairwise Frame.Rises := by
  induction h with
  | root => exact .nil
  | paren start _ _ => exact .nil
  | operator hstandard hrises _ ih =>
    rw [group_operator hstandard.isOperator]
    exact .cons hrises ih

theorem standard (h : Terraced stack) : ∀ frame ∈ group stack, frame.Standard := by
  induction h with
  | root => simp [group, Pending.isOperator]
  | paren start _ _ => simp [group, Pending.isOperator]
  | operator hstandard _ _ ih =>
    rw [group_operator hstandard.isOperator]
    exact List.forall_mem_cons.mpr ⟨hstandard, ih⟩

/-- Whatever waits highest may be pushed on any terraced stack. -/
theorem push_highest (h : Terraced stack) {frame : Frame} (hstandard : frame.Standard)
    (hthreshold : frame.threshold = 13) : Terraced (frame :: stack) := by
  refine .operator hstandard ?_ h
  intro older hmem
  have hle := (h.standard older hmem).bounds.2
  refine ⟨hthreshold ▸ hle, ?_⟩
  intro hlt
  exact absurd hthreshold (Int.ne_of_lt hlt)

/-- After an operator has folded what is above its power, nothing of its group is. -/
theorem notAbove (h : Terraced stack) {power : Power} (hpower : .group ≤ power) :
    Terraced (notAbove power stack) ∧
      ∀ older ∈ group (Frames.notAbove power stack), older.threshold ≤ power := by
  induction h with
  | root =>
    have hnot : ¬ power < Power.base :=
      Int.not_lt.mpr (Int.le_trans (Int.le_of_lt Power.base_lt_group) hpower)
    have hstack : Frames.notAbove power [⟨.base, .root⟩] = [⟨.base, .root⟩] := by
      simp [Frames.notAbove, hnot]
    rw [hstack]
    exact ⟨.root, by simp [group, Pending.isOperator]⟩
  | @paren start below h _ =>
    have hstack : Frames.notAbove power (⟨.group, .paren start⟩ :: below) =
        ⟨.group, .paren start⟩ :: below := by
      simp [Frames.notAbove, Int.not_lt.mpr hpower]
    rw [hstack]
    exact ⟨h.paren start, by simp [group, Pending.isOperator]⟩
  | @operator frame below hstandard hrises h ih =>
    by_cases habove : power < frame.threshold
    · simpa [Frames.notAbove, habove] using ih
    · have hstack : Frames.notAbove power (frame :: below) = frame :: below := by
        simp [Frames.notAbove, habove]
      have hle : frame.threshold ≤ power := Int.not_lt.mp habove
      rw [hstack, group_operator hstandard.isOperator]
      refine ⟨.operator hstandard hrises h, List.forall_mem_cons.mpr ⟨hle, ?_⟩⟩
      intro older hmem
      exact Int.le_trans (hrises older hmem).1 hle

/-- Without its newest frame, a terraced stack is terraced or empty. -/
theorem tail {frame : Frame} {below : List Frame} (h : Terraced (frame :: below))
    (hne : below ≠ []) : Terraced below := by
  cases h with
  | root => exact absurd rfl hne
  | paren _ h => exact h
  | operator _ _ h => exact h

/-- From any frame on, the rest of a terraced stack is terraced. -/
theorem of_append {newer older : List Frame} {mark : Frame}
    (h : Terraced (newer ++ mark :: older)) : Terraced (mark :: older) := by
  induction newer with
  | nil => exact h
  | cons frame newer ih => exact ih (h.tail (by simp))

/-- What is below the `(` of the innermost group is terraced. -/
theorem of_outside (h : Terraced stack) {threshold : Power} {start : Nat} {below : List Frame}
    (houtside : outside stack = ⟨threshold, .paren start⟩ :: below) : Terraced below := by
  have hsplit : group stack ++ outside stack = stack := List.takeWhile_append_dropWhile
  rw [← hsplit, houtside] at h
  cases h.of_append with
  | paren _ h => exact h
  | operator hstandard _ _ => cases hstandard.isOperator

/-- **A step keeps the stack terraced.** -/
theorem step {state next : State} {token : Token} (h : Terraced state.stack)
    (hstep : state.step .standard token = .ok next) : Terraced next.stack := by
  cases State.Step.of_step hstep with
  | operand _ => exact h
  | group _ => exact h.paren _
  | prefixed hatom =>
    have hright := Table.right_of_mem_unary_standard _ (Table.mem_of_atom_operator hatom).2.1
    exact h.push_highest ⟨rfl, .inl ⟨rfl, hright⟩⟩ hright
  | @infixed stack operand entry left hentry _ =>
    have hmem := (Table.mem_of_binaryFor? hentry).2.1
    obtain ⟨hkept, hle⟩ := h.notAbove (Table.grouped_standard entry hmem)
    rcases Table.right_of_mem_binary_standard entry hmem with
      ⟨hsymbol, hright⟩ | ⟨hsymbol, hright, hlow⟩
    · exact hkept.push_highest ⟨rfl, .inl ⟨by simp [Frame.pilesUp, hsymbol], hright⟩⟩ hright
    · -- A left-associative operator has folded everything that reaches its threshold.
      refine .operator ⟨rfl, .inr ⟨by simp [Frame.pilesUp, hsymbol], hlow⟩⟩ ?_ hkept
      intro older holder
      have hlt : older.threshold < entry.right :=
        hright ▸ Int.lt_add_one_of_le (hle older holder)
      exact ⟨Int.le_of_lt hlt, fun _ => hlt⟩
  | closing _ _ houtside _ => exact h.of_outside houtside

/-! ### What the shape says -/

/-- The whole input waits at the bottom, and nowhere else. -/
theorem exists_root (h : Terraced stack) :
    ∃ above, stack = above ++ [⟨.base, .root⟩] ∧ ∀ frame ∈ above, frame.pending ≠ .root := by
  induction h with
  | root => exact ⟨[], rfl, nofun⟩
  | paren start _ ih =>
    obtain ⟨above, rfl, habove⟩ := ih
    exact ⟨_ :: above, rfl, List.forall_mem_cons.mpr ⟨nofun, habove⟩⟩
  | @operator frame below hstandard _ _ ih =>
    obtain ⟨above, rfl, habove⟩ := ih
    refine ⟨frame :: above, rfl, List.forall_mem_cons.mpr ⟨?_, habove⟩⟩
    intro hroot
    have hop := hstandard.isOperator
    rw [hroot] at hop
    cases hop

/-- The groups are the frames at the threshold of groups. -/
theorem threshold_eq_group_iff (h : Terraced stack) :
    ∀ frame ∈ stack, frame.threshold = .group ↔ frame.pending.isParen = true := by
  induction h with
  | root => simp [Pending.isParen, Power.base, Power.group]
  | paren start _ ih => exact List.forall_mem_cons.mpr ⟨iff_of_true rfl rfl, ih⟩
  | @operator frame below hstandard _ _ ih =>
    refine List.forall_mem_cons.mpr ⟨iff_of_false (Int.ne_of_gt hstandard.bounds.1) ?_, ih⟩
    have hop := hstandard.isOperator
    cases hpending : frame.pending <;> simp_all [Pending.isOperator, Pending.isParen]

/-- Each open group, and the whole input, adds seven frames at most to those that pile up. -/
theorem length_le (h : Terraced stack) :
    stack.length ≤ 7 * (starts stack).length + (low (group stack)).length + 1 +
      (stack.filter Frame.pilesUp).length := by
  induction h with
  | root => decide
  | @paren start below h ih =>
    have hsix := length_low_le h.rises h.standard
    have hstarts : starts (⟨.group, .paren start⟩ :: below) = start :: starts below := rfl
    have hpiles : (⟨.group, .paren start⟩ :: below : List Frame).filter Frame.pilesUp =
        below.filter Frame.pilesUp := rfl
    rw [hstarts, hpiles, List.length_cons, List.length_cons]
    omega
  | @operator frame below hstandard hrises h ih =>
    have hstarts : starts (frame :: below) = starts below :=
      starts_operator frame.threshold hstandard.isOperator below
    rw [hstarts, group_operator hstandard.isOperator, List.length_cons]
    rcases hstandard.threshold with ⟨hpiles, heq⟩ | ⟨hpiles, hmem⟩
    · have hlow : low (frame :: group below) = low (group below) := by simp [low, heq]
      rw [hlow, List.filter_cons_of_pos hpiles, List.length_cons]
      omega
    · have hlt := (Power.bounds_of_mem_leftAssociative _ hmem).2
      have hlow : low (frame :: group below) = frame :: low (group below) := by simp [low, hlt]
      rw [hlow, List.filter_cons_of_neg (by simp [hpiles]), List.length_cons]
      omega

end Terraced

theorem Reaches.terraced {tokens : List Token} {state : State}
    (h : Reaches .standard tokens state) : Terraced state.stack := by
  induction h with
  | initial => exact .root
  | step _ hstep ih => exact ih.step hstep

/-! ### Segments -/

/-- The frames are operators that wait one on top of the other, the oldest right above a group or
above the whole input. -/
def IsSegment (segment stack : List Frame) : Prop :=
  ∃ newer mark older, stack = newer ++ (segment ++ mark :: older) ∧
    mark.pending.isOperator = false ∧ ∀ frame ∈ segment, frame.pending.isOperator = true

/-- A segment is the innermost group of the stack it is on top of. -/
theorem IsSegment.exists_group {segment stack : List Frame} (h : IsSegment segment stack)
    (terraced : Terraced stack) : ∃ lower, Terraced lower ∧ group lower = segment := by
  obtain ⟨newer, mark, older, rfl, hmark, hsegment⟩ := h
  refine ⟨segment ++ mark :: older, ?_, ?_⟩
  · cases segment with
    | nil => exact terraced.of_append
    | cons frame segment => exact terraced.of_append
  · rw [group, List.takeWhile_append_of_pos hsegment, List.takeWhile_cons_of_neg (by simp [hmark]),
      List.append_nil]

/-- **The stack under the standard operators.** In every state that tokens lead to, the whole input
waits at the bottom, at -1, and nowhere else; the frames at 0 are the groups, which are the `(`
without a matching `)` in order; and in every segment thresholds rise from the bottom to the top,
strictly as long as they are below 13, so that six frames at most are. Chains of left-associative
operators therefore never make the stack grow: its depth is bounded by the open groups and by the
operators that wait in front of operands or after a `**`. -/
theorem stack_of_reaches_standard {tokens : List Token} {state : State}
    (h : Reaches .standard tokens state) :
    (∃ above, state.stack = above ++ [⟨-1, .root⟩] ∧ ∀ frame ∈ above, frame.pending ≠ .root) ∧
      (∀ frame ∈ state.stack, frame.threshold = 0 ↔ frame.pending.isParen = true) ∧
      Unclosed tokens (starts state.stack) ∧
      (∀ segment, IsSegment segment state.stack →
        segment.Pairwise (fun newer older => older.threshold ≤ newer.threshold ∧
          (newer.threshold < 13 → older.threshold < newer.threshold)) ∧
        (segment.filter (·.threshold < 13)).length ≤ 6) ∧
      state.depth ≤ 7 * ((starts state.stack).length + 1) +
        (state.stack.filter Frame.pilesUp).length := by
  have terraced := h.terraced
  refine ⟨terraced.exists_root, terraced.threshold_eq_group_iff, h.unclosed, ?_, ?_⟩
  · intro segment hsegment
    obtain ⟨lower, hlower, rfl⟩ := hsegment.exists_group terraced
    exact ⟨hlower.rises, length_low_le hlower.rises hlower.standard⟩
  · have hdepth := terraced.length_le
    have hsix := length_low_le terraced.rises terraced.standard
    rw [State.depth]
    omega

/-- After `1 | 1 + ( 1 * -`, two segments wait, of two frames each. -/
def waitingSign : State :=
  ⟨[⟨13, .unary "-"⟩, ⟨12, .binary "*" (.literal 1)⟩, ⟨0, .paren 0⟩,
    ⟨10, .binary "+" (.literal 1)⟩, ⟨2, .binary "|" (.literal 1)⟩, ⟨-1, .root⟩], none⟩

/-- The sign rises over the product that it is an operand of, and the bound on the depth counts one
open group and one operator that can pile up. -/
theorem stack_of_waitingSign :
    Reaches .standard
        [.one, .sign "|", .one, .sign "+", .leftParen, .one, .sign "*", .sign "-"] waitingSign ∧
      (waitingSign.stack.take 2).Pairwise (fun newer older => older.threshold ≤ newer.threshold ∧
        (newer.threshold < 13 → older.threshold < newer.threshold)) ∧
      waitingSign.depth ≤ 7 * 2 + 1 := by
  have hreaches : Reaches .standard
      [.one, .sign "|", .one, .sign "+", .leftParen, .one, .sign "*", .sign "-"] waitingSign :=
    (((((((Reaches.initial.step rfl).step rfl).step rfl).step rfl).step rfl).step rfl).step
      rfl).step rfl
  obtain ⟨-, -, -, hsegments, hdepth⟩ := stack_of_reaches_standard hreaches
  have hsegment : IsSegment (waitingSign.stack.take 2) waitingSign.stack :=
    ⟨[], _, _, rfl, rfl, by decide⟩
  exact ⟨hreaches, (hsegments _ hsegment).1, hdepth⟩

end Frames

end Reckoner
