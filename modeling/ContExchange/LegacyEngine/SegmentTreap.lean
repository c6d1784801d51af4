import ContExchange.Lib.Runs
import ContExchange.Lib.StepFunction
import Mathlib.Tactic

/-!
# Legacy engine: the segment treap

`SegmentTreap` keeps a sorted map whose values can be added to on a half-open interval of keys.
A node holds an addition that its subtree has still to be given: it is pushed down when the
treap is split or merged.

* `Node`, `split`, `merge`, `getMin` and the public operations, each with the treap it leaves;
* `Node.entriesWith`: the map a tree stands for, below some pending addition;
* `Settled`: no addition waits on the way to a key;
* `step_right_iff`: a call answers and leaves what the reference map does, unless a deletion
  loses an addition that waits in the deleted node.

The reference is `Lib.Breaks`, the list of the keys with their values.
-/

namespace ContExchange
namespace LegacyEngine
namespace SegmentTreap

open Lib

universe u v w

section Model

variable {T : Type u} {F : Type v}

/-- `SegmentTreap::Node`, or a null pointer. -/
inductive Node (T : Type u) (F : Type v) where
  | null
  | node (left : Node T F) (key : T) (value accumulator : F) (priority : Nat) (right : Node T F)
deriving DecidableEq

namespace Node

def size : Node T F → Nat
  | .null => 0
  | .node left _ _ _ _ right => left.size + right.size + 1

def keys : Node T F → List T
  | .null => []
  | .node left key _ _ _ right => left.keys ++ key :: right.keys

end Node

section Pushing

variable [Add F]

/-- An addition that a whole subtree is to be given. -/
def Node.accumulate (addition : F) : Node T F → Node T F
  | .null => .null
  | .node left key value accumulator priority right =>
      .node left key value (accumulator + addition) priority right

@[simp] theorem Node.size_accumulate (a : F) (t : Node T F) : (t.accumulate a).size = t.size := by
  cases t <;> rfl

variable [Zero F]

def Node.pushAccumulated : Node T F → Node T F
  | .null => .null
  | .node left key value accumulator priority right =>
      .node (left.accumulate accumulator) key (value + accumulator) 0 priority
        (right.accumulate accumulator)

namespace Node

@[simp] theorem size_pushAccumulated (t : Node T F) : t.pushAccumulated.size = t.size := by
  cases t with
  | null => rfl
  | node => simp [pushAccumulated, size]

theorem size_children_lt {t left right : Node T F} {key : T} {value accumulator : F}
    {priority : Nat} (h : t.pushAccumulated = .node left key value accumulator priority right) :
    left.size < t.size ∧ right.size < t.size := by
  have hsize := congrArg size h
  rw [size_pushAccumulated, size] at hsize
  omega

end Node
end Pushing

section Operations

variable [LinearOrder T] [Add F] [Zero F]

/-- `Split`: the keys up to the pivot, and the others. -/
def split (node : Node T F) (pivot : T) : Node T F × Node T F :=
  match _h : node.pushAccumulated with
  | .null => (.null, .null)
  | .node left key value accumulator priority right =>
      if key < pivot ∨ key = pivot then
        let result := split right pivot
        (.node left key value accumulator priority result.1, result.2)
      else
        let result := split left pivot
        (result.1, .node result.2 key value accumulator priority right)
termination_by node.size
decreasing_by
  · exact (Node.size_children_lt _h).2
  · exact (Node.size_children_lt _h).1

def merge (node1 node2 : Node T F) : Node T F :=
  match _h1 : node1.pushAccumulated, _h2 : node2.pushAccumulated with
  | .null, _ => node2
  | _, .null => node1
  | .node left1 key1 value1 accumulator1 priority1 right1,
    .node left2 key2 value2 accumulator2 priority2 right2 =>
      if priority2 < priority1 then
        .node left1 key1 value1 accumulator1 priority1 (merge right1 node2.pushAccumulated)
      else
        .node (merge node1.pushAccumulated left2) key2 value2 accumulator2 priority2 right2
termination_by node1.size + node2.size
decreasing_by
  · rw [Node.size_pushAccumulated]
    exact Nat.add_lt_add_right (Node.size_children_lt _h1).2 _
  · rw [Node.size_pushAccumulated]
    exact Nat.add_lt_add_left (Node.size_children_lt _h2).1 _

/-- `GetMin`: the nodes above the one that is found are pushed. -/
def getMin : Node T F → Node T F × Option T
  | .null => (.null, none)
  | .node .null key value accumulator priority right =>
      (.node .null key value accumulator priority right, some key)
  | .node (.node left key' value' accumulator' priority' right') key value accumulator priority
      right =>
      let found := getMin ((Node.node left key' value' accumulator' priority' right').accumulate
        accumulator)
      (.node found.1 key (value + accumulator) 0 priority (right.accumulate accumulator), found.2)
termination_by node => node.size
decreasing_by
  simp only [Node.size_accumulate, Node.size]
  omega

/-- `GetValue` of the node of a key. -/
def getValue (key : T) : Node T F → F
  | .null => 0
  | .node left nodeKey value accumulator _ right =>
      if key = nodeKey then value + accumulator
      else if key < nodeKey then getValue key left
      else getValue key right

/-- `GetTreeKeys` and `GetTreeValues`: every node is pushed and shown. -/
def getTree {R : Type*} (shown : T → F → R) (node : Node T F) : Node T F × List R :=
  match _h : node.pushAccumulated with
  | .null => (.null, [])
  | .node left key value accumulator priority right =>
      let lower := getTree shown left
      let upper := getTree shown right
      (.node lower.1 key value accumulator priority upper.1,
        lower.2 ++ shown key (value + accumulator) :: upper.2)
termination_by node.size
decreasing_by
  · exact (Node.size_children_lt _h).1
  · exact (Node.size_children_lt _h).2

def getTreeKeys (node : Node T F) : Node T F × List T :=
  getTree (fun key _ => key) node

def getTreeValues (node : Node T F) : Node T F × List F :=
  getTree (fun _ value => value) node

/-- `Insert`, with the priority that is drawn. -/
def insert (root : Node T F) (key : T) (priority : Nat) : Node T F :=
  let result := split root key
  merge (merge result.1 (.node .null key 0 0 priority .null)) result.2

/-- `Delete`: the children of the node take its place. -/
def delete (key : T) : Node T F → Node T F
  | .null => .null
  | .node left nodeKey value accumulator priority right =>
      if nodeKey = key then merge left right
      else if key < nodeKey then .node (delete key left) nodeKey value accumulator priority right
      else .node left nodeKey value accumulator priority (delete key right)

def getUpperKey (root : Node T F) (key : T) : Node T F × Option T :=
  let parts := split root key
  let found := getMin parts.2
  (merge parts.1 found.1, found.2)

/-- `GetUpperValue`: the node that was found is read after the merge. -/
def getUpperValue (root : Node T F) (key : T) : Node T F × F :=
  let parts := split root key
  let found := getMin parts.2
  let root := merge parts.1 found.1
  match found.2 with
  | none => (root, 0)
  | some upper => (root, getValue upper root)

/-- The keys above `left` up to `right` are cut out, changed and put back. -/
def onHalfInterval {R : Type*} (root : Node T F) (left right : T)
    (change : Node T F → Node T F × R) : Node T F × R :=
  let beam := split root right
  let parts := split beam.1 left
  let changed := change parts.2
  (merge (merge parts.1 changed.1) beam.2, changed.2)

def addOnHalfInterval (root : Node T F) (left right : T) (addition : F) : Node T F :=
  (onHalfInterval root left right fun half => (half.accumulate addition, ())).1

def getHalfIntervalKeys (root : Node T F) (left right : T) : Node T F × List T :=
  onHalfInterval root left right getTreeKeys

def getHalfIntervalValues (root : Node T F) (left right : T) : Node T F × List F :=
  onHalfInterval root left right getTreeValues

end Operations
end Model

section Meaning

variable {T : Type u} {F : Type v} [AddCommMonoid F]

namespace Node

/-- The keys with their values, when an addition waits above the tree. -/
def entriesWith (above : F) : Node T F → Breaks T F
  | .null => []
  | .node left key value accumulator _ right =>
      entriesWith (above + accumulator) left ++
        (key, value + (above + accumulator)) :: entriesWith (above + accumulator) right

/-- The keys with their values. -/
def entries (t : Node T F) : Breaks T F :=
  t.entriesWith 0

variable {t left right : Node T F} {key : T} {value accumulator a : F} {priority : Nat}

theorem keys_entriesWith (a : F) (t : Node T F) : (t.entriesWith a).keys = t.keys := by
  induction t generalizing a with
  | null => rfl
  | node left key value accumulator priority right ihl ihr =>
      rw [entriesWith, Breaks.keys, List.map_append, List.map_cons, ← Breaks.keys, ← Breaks.keys,
        ihl, ihr, keys]

theorem entriesWith_accumulate (a addition : F) (t : Node T F) :
    (t.accumulate addition).entriesWith a = t.entriesWith (a + addition) := by
  cases t with
  | null => rfl
  | node left key value accumulator priority right =>
      rw [accumulate, entriesWith, entriesWith, add_assoc, add_comm addition]

theorem entriesWith_add (a addition : F) (t : Node T F) :
    t.entriesWith (a + addition) = (t.entriesWith a).map (fun e => (e.1, e.2 + addition)) := by
  induction t generalizing a with
  | null => rfl
  | node left key value accumulator priority right ihl ihr =>
      rw [entriesWith, entriesWith, add_right_comm a, ihl, ihr, List.map_append, List.map_cons,
        add_assoc value]

theorem entriesWith_pushAccumulated (a : F) (t : Node T F) :
    t.pushAccumulated.entriesWith a = t.entriesWith a := by
  cases t with
  | null => rfl
  | node left key value accumulator priority right =>
      rw [pushAccumulated, entriesWith, entriesWith, add_zero, entriesWith_accumulate,
        entriesWith_accumulate, add_assoc, add_comm accumulator]

@[simp] theorem keys_accumulate (addition : F) (t : Node T F) :
    (t.accumulate addition).keys = t.keys := by
  cases t <;> rfl

@[simp] theorem keys_pushAccumulated (t : Node T F) : t.pushAccumulated.keys = t.keys := by
  cases t with
  | null => rfl
  | node => simp [pushAccumulated, keys]

theorem eq_null_of_push (h : t.pushAccumulated = .null) : t = .null := by
  cases t with
  | null => rfl
  | node => cases h

theorem keys_of_push (h : t.pushAccumulated = .node left key value accumulator priority right) :
    t.keys = left.keys ++ key :: right.keys := by
  rw [← keys_pushAccumulated, h, keys]

theorem entriesWith_of_push
    (h : t.pushAccumulated = .node left key value accumulator priority right) :
    t.entriesWith a = left.entriesWith (a + accumulator) ++
      (key, value + (a + accumulator)) :: right.entriesWith (a + accumulator) := by
  rw [← entriesWith_pushAccumulated, h, entriesWith]

@[elab_as_elim] theorem pushInduction {motive : Node T F → Prop}
    (null : motive .null)
    (node : ∀ (t left : Node T F) (key : T) (value accumulator : F) (priority : Nat)
      (right : Node T F),
      t.pushAccumulated = .node left key value accumulator priority right →
        motive left → motive right → motive t)
    (t : Node T F) : motive t := by
  cases h : t.pushAccumulated with
  | null => exact eq_null_of_push h ▸ null
  | node left key value accumulator priority right =>
      have hlt := size_children_lt h
      exact node t left key value accumulator priority right h
        (pushInduction null node left) (pushInduction null node right)
termination_by t.size
decreasing_by
  · exact hlt.1
  · exact hlt.2

theorem accumulator_of_push
    (h : t.pushAccumulated = .node left key value accumulator priority right) :
    accumulator = 0 := by
  cases t with
  | null => cases h
  | node => exact ((node.inj h).2.2.2.1).symm

end Node

section Merge

variable {t1 t2 left1 right1 left2 right2 : Node T F} {key1 key2 : T}
  {value1 accumulator1 value2 accumulator2 : F} {priority1 priority2 : Nat}

theorem merge_null_left (t : Node T F) : merge .null t = t := by
  rw [merge]
  rfl

theorem merge_null_right (t : Node T F) : merge t .null = t := by
  rw [merge]
  split
  · rename_i h
    exact (Node.eq_null_of_push h).symm
  · rfl
  · rename_i h
    cases h

theorem merge_nodes
    (h1 : t1.pushAccumulated = .node left1 key1 value1 accumulator1 priority1 right1)
    (h2 : t2.pushAccumulated = .node left2 key2 value2 accumulator2 priority2 right2) :
    merge t1 t2 =
      if priority2 < priority1 then
        .node left1 key1 value1 accumulator1 priority1 (merge right1 t2.pushAccumulated)
      else .node (merge t1.pushAccumulated left2) key2 value2 accumulator2 priority2 right2 := by
  rw [merge]
  split
  · rename_i h
    cases h1.symm.trans h
  · rename_i h _
    cases h2.symm.trans h
  · rename_i h1' h2'
    cases h1.symm.trans h1'
    cases h2.symm.trans h2'
    rfl

@[elab_as_elim] theorem mergeInduction {motive : Node T F → Node T F → Prop}
    (left_null : ∀ t, motive .null t)
    (right_null : ∀ t, motive t .null)
    (nodes : ∀ (t1 t2 left1 : Node T F) (key1 : T) (value1 accumulator1 : F) (priority1 : Nat)
      (right1 left2 : Node T F) (key2 : T) (value2 accumulator2 : F) (priority2 : Nat)
      (right2 : Node T F),
      t1.pushAccumulated = .node left1 key1 value1 accumulator1 priority1 right1 →
        t2.pushAccumulated = .node left2 key2 value2 accumulator2 priority2 right2 →
          motive right1 t2.pushAccumulated → motive t1.pushAccumulated left2 → motive t1 t2)
    (t1 t2 : Node T F) : motive t1 t2 := by
  cases h1 : t1.pushAccumulated with
  | null => exact Node.eq_null_of_push h1 ▸ left_null t2
  | node left1 key1 value1 accumulator1 priority1 right1 =>
      cases h2 : t2.pushAccumulated with
      | null => exact Node.eq_null_of_push h2 ▸ right_null t1
      | node left2 key2 value2 accumulator2 priority2 right2 =>
          have hlt1 := Node.size_children_lt h1
          have hlt2 := Node.size_children_lt h2
          have hsize1 := Node.size_pushAccumulated t1
          have hsize2 := Node.size_pushAccumulated t2
          exact nodes t1 t2 _ _ _ _ _ _ _ _ _ _ _ _ h1 h2
            (mergeInduction left_null right_null nodes right1 t2.pushAccumulated)
            (mergeInduction left_null right_null nodes t1.pushAccumulated left2)
termination_by t1.size + t2.size
decreasing_by
  · omega
  · omega

theorem entriesWith_merge (a : F) (t1 t2 : Node T F) :
    (merge t1 t2).entriesWith a = t1.entriesWith a ++ t2.entriesWith a := by
  induction t1, t2 using mergeInduction with
  | left_null t => rw [merge_null_left]; rfl
  | right_null t => rw [merge_null_right, Node.entriesWith, List.append_nil]
  | nodes t1 t2 left1 key1 value1 accumulator1 priority1 right1 left2 key2 value2 accumulator2
      priority2 right2 h1 h2 ih1 ih2 =>
      obtain rfl := Node.accumulator_of_push h1
      obtain rfl := Node.accumulator_of_push h2
      rw [Node.entriesWith_pushAccumulated] at ih1 ih2
      rw [merge_nodes h1 h2]
      split_ifs
      · rw [Node.entriesWith, add_zero, ih1, Node.entriesWith_of_push h1, add_zero]
        simp only [List.append_assoc, List.cons_append]
      · rw [Node.entriesWith, add_zero, ih2, Node.entriesWith_of_push h2, add_zero]
        simp only [List.append_assoc]

theorem keys_merge (t1 t2 : Node T F) : (merge t1 t2).keys = t1.keys ++ t2.keys := by
  rw [← Node.keys_entriesWith 0 (merge t1 t2), entriesWith_merge, Breaks.keys, List.map_append,
    ← Breaks.keys, ← Breaks.keys, Node.keys_entriesWith, Node.keys_entriesWith]

end Merge

section Order

variable [LinearOrder T] {t left right : Node T F} {key pivot : T}
  {value accumulator a : F} {priority : Nat}

theorem split_of_null (h : t.pushAccumulated = .null) : split t pivot = (.null, .null) := by
  rw [split]
  split
  · rfl
  · rename_i h'
    cases h.symm.trans h'

theorem split_of_le (h : t.pushAccumulated = .node left key value accumulator priority right)
    (hle : key < pivot ∨ key = pivot) :
    split t pivot =
      (.node left key value accumulator priority (split right pivot).1, (split right pivot).2) := by
  rw [split]
  split
  · rename_i h'
    cases h.symm.trans h'
  · rename_i h'
    cases h.symm.trans h'
    exact if_pos hle

theorem split_of_not_le (h : t.pushAccumulated = .node left key value accumulator priority right)
    (hle : ¬ (key < pivot ∨ key = pivot)) :
    split t pivot =
      ((split left pivot).1, .node (split left pivot).2 key value accumulator priority right) := by
  rw [split]
  split
  · rename_i h'
    cases h.symm.trans h'
  · rename_i h'
    cases h.symm.trans h'
    exact if_neg hle

theorem entriesWith_split (a : F) (t : Node T F) (pivot : T) :
    (split t pivot).1.entriesWith a ++ (split t pivot).2.entriesWith a = t.entriesWith a := by
  induction t using Node.pushInduction with
  | null => rw [split_of_null rfl]; rfl
  | node t left key value accumulator priority right h ihl ihr =>
      obtain rfl := Node.accumulator_of_push h
      rw [Node.entriesWith_of_push h]
      by_cases hle : key < pivot ∨ key = pivot
      · rw [split_of_le h hle, Node.entriesWith, add_zero, List.append_assoc, List.cons_append, ihr]
      · rw [split_of_not_le h hle, Node.entriesWith, add_zero, ← List.append_assoc, ihl]

def Ordered (t : Node T F) : Prop :=
  t.keys.Pairwise (· < ·)

omit [AddCommMonoid F] in
theorem Ordered.children (ht : Ordered t) (hkeys : t.keys = left.keys ++ key :: right.keys) :
    Ordered left ∧ Ordered right ∧ (∀ x ∈ left.keys, x < key) ∧ ∀ x ∈ right.keys, key < x := by
  unfold Ordered at ht
  rw [hkeys, List.pairwise_append, List.pairwise_cons] at ht
  obtain ⟨hleft, ⟨hkey, hright⟩, hcross⟩ := ht
  exact ⟨hleft, hright, fun x hx => hcross x hx key List.mem_cons_self, hkey⟩

theorem split_keys_le (ht : Ordered t) (pivot : T) :
    (∀ x ∈ (split t pivot).1.keys, x ≤ pivot) ∧ ∀ x ∈ (split t pivot).2.keys, pivot < x := by
  induction t using Node.pushInduction with
  | null =>
      rw [split_of_null rfl]
      exact ⟨fun x hx => absurd hx List.not_mem_nil, fun x hx => absurd hx List.not_mem_nil⟩
  | node t left key value accumulator priority right h ihl ihr =>
      obtain ⟨hleft, hright, hlower, hupper⟩ := ht.children (Node.keys_of_push h)
      by_cases hle : key < pivot ∨ key = pivot
      · obtain ⟨hfirst, hsecond⟩ := ihr hright
        have hkey : key ≤ pivot := hle.elim le_of_lt le_of_eq
        rw [split_of_le h hle]
        refine ⟨fun x hx => ?_, hsecond⟩
        rcases List.mem_append.mp hx with hx | hx
        · exact (hlower x hx).le.trans hkey
        · rcases List.mem_cons.mp hx with rfl | hx
          · exact hkey
          · exact hfirst x hx
      · obtain ⟨hfirst, hsecond⟩ := ihl hleft
        have hkey : pivot < key := not_le.mp fun hle' => hle (lt_or_eq_of_le hle')
        rw [split_of_not_le h hle]
        refine ⟨hfirst, fun x hx => ?_⟩
        rcases List.mem_append.mp hx with hx | hx
        · exact hsecond x hx
        · rcases List.mem_cons.mp hx with rfl | hx
          · exact hkey
          · exact hkey.trans (hupper x hx)

end Order

section Settled

variable {t t1 t2 left right : Node T F} {k key pivot : T} {value accumulator a : F}
  {priority : Nat}

/-- No addition waits in the node of a key or above it. -/
def Settled (k : T) : Node T F → Prop
  | .null => True
  | .node left key value accumulator priority right =>
      (k ∈ (Node.node left key value accumulator priority right).keys → accumulator = 0) ∧
        Settled k left ∧ Settled k right

theorem settled_of_notMem (h : k ∉ t.keys) : Settled k t := by
  induction t with
  | null => trivial
  | node left key value accumulator priority right ihl ihr =>
      refine ⟨fun hk => absurd hk h, ihl fun hk => h ?_, ihr fun hk => h ?_⟩
      · exact List.mem_append_left _ hk
      · exact List.mem_append_right _ (List.mem_cons_of_mem _ hk)

theorem Node.accumulate_zero (t : Node T F) : t.accumulate 0 = t := by
  cases t with
  | null => rfl
  | node left key value accumulator priority right => rw [accumulate, add_zero]

theorem Settled.of_push (h : Settled k t)
    (hpush : t.pushAccumulated = .node left key value accumulator priority right) :
    Settled k left ∧ Settled k right := by
  by_cases hk : k ∈ t.keys
  · cases t with
    | null => cases hpush
    | node left' key' value' accumulator' priority' right' =>
        obtain ⟨hzero, hleft, hright⟩ := h
        rw [Node.pushAccumulated, hzero hk, Node.accumulate_zero, Node.accumulate_zero] at hpush
        obtain ⟨rfl, -, -, -, -, rfl⟩ := Node.node.inj hpush
        exact ⟨hleft, hright⟩
  · rw [Node.keys_of_push hpush, List.mem_append, List.mem_cons, not_or, not_or] at hk
    exact ⟨settled_of_notMem hk.1, settled_of_notMem hk.2.2⟩

theorem Settled.pushed (h : Settled k t) : Settled k t.pushAccumulated := by
  cases hpush : t.pushAccumulated with
  | null => trivial
  | node left key value accumulator priority right =>
      exact ⟨fun _ => Node.accumulator_of_push hpush, h.of_push hpush⟩

theorem Settled.merge (h1 : Settled k t1) (h2 : Settled k t2) : Settled k (merge t1 t2) := by
  induction t1, t2 using mergeInduction with
  | left_null t => rwa [merge_null_left]
  | right_null t => rwa [merge_null_right]
  | nodes t1 t2 left1 key1 value1 accumulator1 priority1 right1 left2 key2 value2 accumulator2
      priority2 right2 hpush1 hpush2 ih1 ih2 =>
      obtain ⟨hleft1, hright1⟩ := h1.of_push hpush1
      obtain ⟨hleft2, hright2⟩ := h2.of_push hpush2
      rw [merge_nodes hpush1 hpush2]
      split_ifs
      · exact ⟨fun _ => Node.accumulator_of_push hpush1, hleft1, ih1 hright1 h2.pushed⟩
      · exact ⟨fun _ => Node.accumulator_of_push hpush2, ih2 h1.pushed hleft2, hright2⟩

variable [LinearOrder T]

theorem Settled.split (h : Settled k t) (pivot : T) :
    Settled k (split t pivot).1 ∧ Settled k (split t pivot).2 := by
  induction t using Node.pushInduction with
  | null =>
      rw [split_of_null rfl]
      exact ⟨trivial, trivial⟩
  | node t left key value accumulator priority right hpush ihl ihr =>
      obtain ⟨hleft, hright⟩ := h.of_push hpush
      have hzero := Node.accumulator_of_push hpush
      by_cases hle : key < pivot ∨ key = pivot
      · rw [split_of_le hpush hle]
        exact ⟨⟨fun _ => hzero, hleft, (ihr hright).1⟩, (ihr hright).2⟩
      · rw [split_of_not_le hpush hle]
        exact ⟨(ihl hleft).1, fun _ => hzero, (ihl hleft).2, hright⟩

theorem settled_split (ht : Ordered t) (hle : pivot ≤ k)
    (hbetween : ∀ x ∈ t.keys, pivot < x → k ≤ x) :
    Settled k (split t pivot).1 ∧ Settled k (split t pivot).2 := by
  induction t using Node.pushInduction with
  | null =>
      rw [split_of_null rfl]
      exact ⟨trivial, trivial⟩
  | node t left key value accumulator priority right hpush ihl ihr =>
      obtain ⟨hleft, hright, hlower, hupper⟩ := ht.children (Node.keys_of_push hpush)
      have hzero := Node.accumulator_of_push hpush
      rw [Node.keys_of_push hpush] at hbetween
      by_cases hkey : key < pivot ∨ key = pivot
      · obtain ⟨hfirst, hsecond⟩ := ihr hright fun x hx =>
          hbetween x (List.mem_append_right _ (List.mem_cons_of_mem _ hx))
        have hout : k ∉ left.keys := fun hk =>
          absurd ((hlower k hk).trans_le ((hkey.elim le_of_lt le_of_eq).trans hle)) (lt_irrefl k)
        rw [split_of_le hpush hkey]
        exact ⟨⟨fun _ => hzero, settled_of_notMem hout, hfirst⟩, hsecond⟩
      · obtain ⟨hfirst, hsecond⟩ := ihl hleft fun x hx =>
          hbetween x (List.mem_append_left _ hx)
        have hpivot : pivot < key := not_le.mp fun hle' => hkey (lt_or_eq_of_le hle')
        have hle' := hbetween key (List.mem_append_right _ List.mem_cons_self) hpivot
        have hout : k ∉ right.keys := fun hk => absurd (hupper k hk) (not_lt.mpr hle')
        rw [split_of_not_le hpush hkey]
        exact ⟨hfirst, fun _ => hzero, hsecond, settled_of_notMem hout⟩

end Settled

section Lookup

variable {t left right : Node T F} {k key : T} {value accumulator : F} {priority : Nat}

theorem entriesWith_getTree {R : Type*} (shown : T → F → R) (a : F) (t : Node T F) :
    (getTree shown t).1.entriesWith a = t.entriesWith a ∧
      (getTree shown t).2 = t.entries.map (fun e => shown e.1 e.2) := by
  induction t using Node.pushInduction generalizing a with
  | null => rw [getTree]; exact ⟨rfl, rfl⟩
  | node t left key value accumulator priority right h ihl ihr =>
      obtain rfl := Node.accumulator_of_push h
      have heq : getTree shown t =
          (.node (getTree shown left).1 key value 0 priority (getTree shown right).1,
            (getTree shown left).2 ++ shown key (value + 0) :: (getTree shown right).2) := by
        rw [getTree]
        split
        · rename_i h'
          cases h.symm.trans h'
        · rename_i h'
          cases h.symm.trans h'
          rfl
      rw [heq, Node.entriesWith, Node.entries, Node.entriesWith_of_push h,
        Node.entriesWith_of_push h]
      simp only [add_zero, (ihl a).1, (ihr a).1, (ihl 0).2, (ihr 0).2, Node.entries,
        List.map_append, List.map_cons, and_self]

theorem getMin_leftmost (h : t.pushAccumulated = .node .null key value accumulator priority right) :
    getMin t = (t, some key) := by
  cases t with
  | null => cases h
  | node left' key' value' accumulator' priority' right' =>
      obtain ⟨hleft, rfl, -⟩ := Node.node.inj h
      cases left' with
      | null => rw [getMin]
      | node => cases hleft

theorem getMin_of_push (h : t.pushAccumulated = .node left key value accumulator priority right)
    (hleft : left ≠ .null) :
    getMin t = (.node (getMin left).1 key value accumulator priority right, (getMin left).2) := by
  cases t with
  | null => cases h
  | node left' key' value' accumulator' priority' right' =>
      obtain ⟨rfl, rfl, rfl, rfl, rfl, rfl⟩ := Node.node.inj h
      cases left' with
      | null => exact absurd rfl hleft
      | node => rw [getMin]

theorem getMin_spec (t : Node T F) :
    (∀ a, (getMin t).1.entriesWith a = t.entriesWith a) ∧ (getMin t).2 = t.keys.head? ∧
      ∀ k, Settled k t → Settled k (getMin t).1 := by
  induction t using Node.pushInduction with
  | null => rw [getMin]; exact ⟨fun _ => rfl, rfl, fun _ h => h⟩
  | node t left key value accumulator priority right h ihl ihr =>
      cases left with
      | null =>
          rw [getMin_leftmost h, Node.keys_of_push h]
          exact ⟨fun _ => rfl, rfl, fun _ h => h⟩
      | node left' key' value' accumulator' priority' right' =>
          obtain ⟨hentries, hhead, hsettled⟩ := ihl
          have hzero := Node.accumulator_of_push h
          rw [getMin_of_push h (by rintro ⟨⟩)]
          refine ⟨fun a => ?_, ?_, fun k hk => ?_⟩
          · rw [Node.entriesWith, hentries, Node.entriesWith_of_push h]
          · rw [hhead, Node.keys_of_push h, List.head?_append_of_ne_nil]
            exact List.append_ne_nil_of_right_ne_nil _ (List.cons_ne_nil _ _)
          · obtain ⟨hleft, hright⟩ := hk.of_push h
            exact ⟨fun _ => hzero, hsettled k hleft, hright⟩

theorem mem_entries_getValue [LinearOrder T] (hk : Settled k t) (ht : Ordered t)
    (hmem : k ∈ t.keys) : (k, getValue k t) ∈ t.entries := by
  induction t with
  | null => cases hmem
  | node left key value accumulator priority right ihl ihr =>
      obtain ⟨hzero, hsettledl, hsettledr⟩ := hk
      obtain ⟨hleft, hright, hlower, hupper⟩ := ht.children (Node.keys.eq_2 ..)
      obtain rfl := hzero hmem
      rw [getValue, Node.entries, Node.entriesWith, add_zero, List.mem_append, List.mem_cons]
      rcases List.mem_append.mp hmem with hmem | hmem
      · have hlt := hlower k hmem
        rw [if_neg hlt.ne, if_pos hlt]
        exact .inl (ihl hsettledl hleft hmem)
      · rcases List.mem_cons.mp hmem with rfl | hmem
        · rw [if_pos rfl]
          exact .inr (.inl rfl)
        · have hlt := hupper k hmem
          rw [if_neg hlt.ne', if_neg hlt.not_gt]
          exact .inr (.inr (ihr hsettledr hright hmem))

end Lookup

section Delete

variable [LinearOrder T] {t : Node T F} {k : T}

/-- What waits in the node of a key, and is lost with it, changes no value below. -/
def KeepsBelow (k : T) : F → Node T F → Prop
  | _, .null => True
  | above, .node left key _ accumulator _ right =>
      if key = k then
        left.entriesWith (above + accumulator) = left.entriesWith above ∧
          right.entriesWith (above + accumulator) = right.entriesWith above
      else if k < key then KeepsBelow k (above + accumulator) left
      else KeepsBelow k (above + accumulator) right

instance decidableKeepsBelow [DecidableEq F] (k : T) :
    (above : F) → (t : Node T F) → Decidable (KeepsBelow k above t)
  | _, .null => isTrue trivial
  | above, .node left key _ accumulator _ right =>
      have := decidableKeepsBelow k (above + accumulator) left
      have := decidableKeepsBelow k (above + accumulator) right
      inferInstanceAs (Decidable (if key = k then _ ∧ _ else if k < key then _ else _))

theorem Settled.keepsBelow (h : Settled k t) (a : F) : KeepsBelow k a t := by
  induction t generalizing a with
  | null => trivial
  | node left key value accumulator priority right ihl ihr =>
      obtain ⟨hzero, hleft, hright⟩ := h
      unfold KeepsBelow
      split_ifs with hkey
      · have hmem : k ∈ left.keys ++ key :: right.keys :=
          List.mem_append_right _ (hkey ▸ List.mem_cons_self)
        rw [hzero hmem, add_zero]
        exact ⟨rfl, rfl⟩
      · exact ihl hleft _
      · exact ihr hright _

theorem entriesWith_delete_iff (ht : Ordered t) (a : F) :
    (delete k t).entriesWith a = (t.entriesWith a).removeBreak k ↔ KeepsBelow k a t := by
  induction t generalizing a with
  | null => exact iff_of_true rfl trivial
  | node left key value accumulator priority right ihl ihr =>
      obtain ⟨hleft, hright, hlower, hupper⟩ := ht.children (Node.keys.eq_2 ..)
      have hcons : ∀ (v : F) (t : Breaks T F), Breaks.keys ((key, v) :: t) = key :: t.keys :=
        fun _ _ => rfl
      rw [delete, KeepsBelow, Node.entriesWith]
      split_ifs with hkey hlt
      · subst hkey
        have hout : key ∉ left.keys := fun hmem => lt_irrefl _ (hlower key hmem)
        rw [entriesWith_merge, Breaks.removeBreak_append_right (by rwa [Node.keys_entriesWith]),
          Breaks.removeBreak_cons, if_pos rfl]
        constructor
        · intro h
          obtain ⟨hl, hr⟩ := List.append_inj h (by
            rw [← List.length_map (f := Prod.fst), ← Breaks.keys, Node.keys_entriesWith,
              ← Node.keys_entriesWith (a + accumulator), Breaks.keys, List.length_map])
          exact ⟨hl.symm, hr.symm⟩
        · rintro ⟨hl, hr⟩
          rw [hl, hr]
      · have hout : k ∉ key :: right.keys := by
          rw [List.mem_cons, not_or]
          exact ⟨hlt.ne, fun hmem => absurd (hupper k hmem) hlt.not_gt⟩
        rw [Node.entriesWith, Breaks.removeBreak_append_left (by
          rwa [hcons, Node.keys_entriesWith]), List.append_left_inj, ihl hleft]
      · have hgt : key < k := lt_of_le_of_ne (not_lt.mp hlt) hkey
        have hout : k ∉ left.keys := fun hmem => absurd (hlower k hmem) hgt.not_gt
        rw [Node.entriesWith, Breaks.removeBreak_append_right (by
          rwa [Node.keys_entriesWith]), Breaks.removeBreak_cons, if_neg hkey,
          List.append_right_inj, List.cons_inj_right, ihr hright]

theorem mem_keys_of_delete {k' : T} (h : k ∈ (delete k' t).keys) : k ∈ t.keys := by
  induction t with
  | null => exact h
  | node left key value accumulator priority right ihl ihr =>
      rw [Node.keys, List.mem_append, List.mem_cons]
      rw [delete] at h
      split_ifs at h
      · rw [keys_merge, List.mem_append] at h
        exact h.imp_right .inr
      · rw [Node.keys, List.mem_append, List.mem_cons] at h
        exact h.imp_left ihl
      · rw [Node.keys, List.mem_append, List.mem_cons] at h
        exact h.imp_right (Or.imp_right ihr)

theorem Settled.delete (h : Settled k t) (k' : T) : Settled k (delete k' t) := by
  induction t with
  | null => trivial
  | node left key value accumulator priority right ihl ihr =>
      obtain ⟨hzero, hleft, hright⟩ := h
      have hsub : k ∈ (SegmentTreap.delete k' (.node left key value accumulator priority
          right)).keys → k ∈ (Node.node left key value accumulator priority right).keys :=
        mem_keys_of_delete
      rw [SegmentTreap.delete] at hsub ⊢
      split_ifs at hsub ⊢
      · exact hleft.merge hright
      · exact ⟨fun hk => hzero (hsub hk), ihl hleft, hright⟩
      · exact ⟨fun hk => hzero (hsub hk), hleft, ihr hright⟩

end Delete

section Public

variable [LinearOrder T] {t : Node T F} {k left right : T}

theorem ordered_iff : Ordered t ↔ t.entries.Ascending := by
  rw [Breaks.ascending_iff_keys, Node.entries, Node.keys_entriesWith]
  exact Iff.rfl

theorem split_entries (ht : Ordered t) (pivot : T) :
    (split t pivot).1.entries ++ (split t pivot).2.entries = t.entries ∧
      (∀ x ∈ (split t pivot).1.entries.keys, x ≤ pivot) ∧
        ∀ x ∈ (split t pivot).2.entries.keys, pivot < x := by
  obtain ⟨hle, hlt⟩ := split_keys_le ht pivot
  refine ⟨entriesWith_split 0 t pivot, ?_, ?_⟩
  · rwa [Node.entries, Node.keys_entriesWith]
  · rwa [Node.entries, Node.keys_entriesWith]

omit [LinearOrder T] in
theorem entries_merge (t1 t2 : Node T F) : (merge t1 t2).entries = t1.entries ++ t2.entries :=
  entriesWith_merge 0 t1 t2

theorem entries_insert (ht : Ordered t) (priority : Nat) :
    (insert t k priority).entries = t.entries.insertBreak k 0 := by
  obtain ⟨hsplit, hle, hlt⟩ := split_entries ht k
  have hnew : (Node.node .null k (0 : F) 0 priority .null).entries = [(k, 0)] := by
    rw [Node.entries, Node.entriesWith, add_zero, add_zero]
    rfl
  rw [insert, entries_merge, entries_merge, hnew, ← hsplit, Breaks.insertBreak_append hle hlt,
    List.append_assoc, List.singleton_append]

theorem lookup_spec (ht : Ordered t) (k : T) :
    (merge (split t k).1 (getMin (split t k).2).1).entries = t.entries ∧
      (getMin (split t k).2).2 = t.entries.keyAbove k := by
  obtain ⟨hsplit, hle, hlt⟩ := split_entries ht k
  obtain ⟨hentries, hhead, -⟩ := getMin_spec (split t k).2
  constructor
  · rw [entries_merge, Node.entries, Node.entries, hentries]
    exact hsplit
  · rw [hhead, ← hsplit, Breaks.keyAbove, Breaks.above_append hle hlt, ← List.head?_map,
      ← Node.keys_entriesWith 0]
    rfl

theorem entries_getUpperKey (ht : Ordered t) :
    (getUpperKey t k).1.entries = t.entries ∧ (getUpperKey t k).2 = t.entries.keyAbove k :=
  lookup_spec ht k

theorem Settled.lookup {k' : T} (h : Settled k' t) (k : T) :
    Settled k' (SegmentTreap.merge (SegmentTreap.split t k).1
      (getMin (SegmentTreap.split t k).2).1) := by
  obtain ⟨hfirst, hsecond⟩ := h.split k
  exact hfirst.merge ((getMin_spec _).2.2 k' hsecond)

theorem settled_lookup {k' : T} (ht : Ordered t) (hle : k ≤ k')
    (hbetween : ∀ x ∈ t.keys, k < x → k' ≤ x) :
    Settled k' (merge (split t k).1 (getMin (split t k).2).1) := by
  obtain ⟨hfirst, hsecond⟩ := settled_split ht hle hbetween
  exact hfirst.merge ((getMin_spec _).2.2 k' hsecond)

theorem entries_getUpperValue (ht : Ordered t) :
    (getUpperValue t k).1.entries = t.entries ∧ (getUpperValue t k).2 = t.entries.valueAbove k := by
  obtain ⟨hentries, hfound⟩ := lookup_spec ht k
  unfold getUpperValue
  dsimp only
  rw [hfound]
  cases hkey : t.entries.keyAbove k with
  | none =>
      refine ⟨hentries, ?_⟩
      rw [Breaks.valueAbove, Option.map_eq_none_iff.mp hkey]
      rfl
  | some upper =>
      refine ⟨hentries, ?_⟩
      obtain ⟨hmem, hlt⟩ := Breaks.keyAbove_eq_some hkey
      obtain ⟨e, habove, rfl⟩ := Option.map_eq_some_iff.mp hkey
      have hasc := ordered_iff.mp ht
      have hsettled := settled_lookup ht hlt.le fun x hx hx' =>
        Breaks.above_le hasc habove (by rwa [Node.entries, Node.keys_entriesWith]) hx'
      have hordered := ordered_iff.mpr (hentries ▸ hasc)
      rw [← hentries, Node.entries, Node.keys_entriesWith] at hmem
      have hvalue := mem_entries_getValue hsettled hordered hmem
      rw [hentries] at hvalue
      exact (Breaks.valueAbove_eq hasc hkey hvalue).symm

omit [AddCommMonoid F] in
theorem getUpperValue_fst [Add F] [Zero F] (t : Node T F) (k : T) :
    (getUpperValue t k).1 = merge (split t k).1 (getMin (split t k).2).1 := by
  unfold getUpperValue
  dsimp only
  split <;> rfl

theorem settled_getUpperValue (ht : Ordered t) (k : T) :
    Settled k (getUpperValue t k).1 ∧ ∀ k', Settled k' t → Settled k' (getUpperValue t k).1 := by
  rw [getUpperValue_fst]
  exact ⟨settled_lookup ht le_rfl fun _ _ hx => hx.le, fun _ h => h.lookup k⟩

theorem entries_delete (ht : Ordered t) (h : Settled k t) :
    (delete k t).entries = t.entries.removeBreak k :=
  (entriesWith_delete_iff ht 0).mpr (h.keepsBelow 0)

theorem onHalfInterval_spec (ht : Ordered t) (left right : T) :
    ∃ tail half head : Node T F,
      t.entries = tail.entries ++ half.entries ++ head.entries ∧
        (∀ x ∈ tail.entries.keys, ¬ ((left : WithBot T) < x ∧ x ≤ right)) ∧
        (∀ x ∈ half.entries.keys, (left : WithBot T) < x ∧ x ≤ right) ∧
        (∀ x ∈ head.entries.keys, ¬ ((left : WithBot T) < x ∧ x ≤ right)) ∧
        ∀ {R : Type w} (change : Node T F → Node T F × R),
          onHalfInterval t left right change =
            (merge (merge tail (change half).1) head, (change half).2) := by
  obtain ⟨hsplit, hle, hlt⟩ := split_entries ht right
  have hbeam : Ordered (split t right).1 := by
    rw [ordered_iff] at ht ⊢
    rw [← hsplit] at ht
    exact (List.pairwise_append.mp ht).1
  obtain ⟨hsplit', hle', hlt'⟩ := split_entries hbeam left
  refine ⟨_, _, _, by rw [hsplit', hsplit], fun x hx => ?_, fun x hx => ⟨?_, ?_⟩, fun x hx => ?_,
    fun change => rfl⟩
  · exact fun h => absurd (WithBot.coe_lt_coe.mp h.1) (not_lt.mpr (hle' x hx))
  · exact WithBot.coe_lt_coe.mpr (hlt' x hx)
  · refine hle x ?_
    rw [← hsplit', Breaks.keys_append]
    exact List.mem_append_right _ hx
  · exact fun h => absurd h.2 (not_le.mpr (hlt x hx))

theorem entries_addOnHalfInterval (ht : Ordered t) (left right : T) (addition : F) :
    (addOnHalfInterval t left right addition).entries =
      t.entries.addBetween left right addition := by
  obtain ⟨tail, half, head, hentries, htail, hhalf, hhead, hcut⟩ :=
    onHalfInterval_spec ht left right
  have hadded : (half.accumulate addition).entries =
      half.entries.map (fun e => (e.1, e.2 + addition)) := by
    rw [Node.entries, Node.entriesWith_accumulate, Node.entriesWith_add, Node.entries]
  rw [addOnHalfInterval, hcut, entries_merge, entries_merge, hentries, Breaks.addBetween_append,
    Breaks.addBetween_append, Breaks.addBetween_of_outside htail,
    Breaks.addBetween_of_outside hhead, Breaks.addBetween_of_inside hhalf, hadded]

theorem entries_getHalfInterval {R : Type w} (ht : Ordered t) (left right : T) (shown : T → F → R) :
    (onHalfInterval t left right (getTree shown)).1.entries = t.entries ∧
      (onHalfInterval t left right (getTree shown)).2 =
        (t.entries.between left right).map (fun e => shown e.1 e.2) := by
  obtain ⟨tail, half, head, hentries, htail, hhalf, hhead, hcut⟩ :=
    onHalfInterval_spec ht left right
  rw [hcut]
  constructor
  · rw [entries_merge, entries_merge, hentries, Node.entries.eq_1 (getTree shown half).1,
      (entriesWith_getTree shown 0 half).1]
    rfl
  · rw [(entriesWith_getTree shown 0 half).2, hentries, Breaks.between_append,
      Breaks.between_append, Breaks.between_of_outside htail, Breaks.between_of_outside hhead,
      Breaks.between_of_inside hhalf, List.nil_append, List.append_nil]

end Public
end Meaning

section Runs

variable {T : Type u} {F : Type v}

/-- A call of a public operation; `Insert` with the priority that is drawn. -/
inductive Call (T : Type u) (F : Type v) where
  | insert (key : T) (priority : Nat)
  | delete (key : T)
  | addOnHalfInterval (left right : T) (addition : F)
  | getUpperKey (key : T)
  | getUpperValue (key : T)
  | getHalfIntervalKeys (left right : T)
  | getHalfIntervalValues (left right : T)

inductive Answer (T : Type u) (F : Type v) where
  | done
  | key (key : Option T)
  | value (value : F)
  | keys (keys : List T)
  | values (values : List F)
deriving DecidableEq

variable [LinearOrder T] [AddCommMonoid F]

def call (root : Node T F) : Call T F → Node T F × Answer T F
  | .insert key priority => (insert root key priority, .done)
  | .delete key => (delete key root, .done)
  | .addOnHalfInterval left right addition => (addOnHalfInterval root left right addition, .done)
  | .getUpperKey key => (getUpperKey root key).map id .key
  | .getUpperValue key => (getUpperValue root key).map id .value
  | .getHalfIntervalKeys left right => (getHalfIntervalKeys root left right).map id .keys
  | .getHalfIntervalValues left right => (getHalfIntervalValues root left right).map id .values

/-- A call on the list of the keys with their values. -/
def reference (t : Breaks T F) : Call T F → Breaks T F × Answer T F
  | .insert key _ => (t.insertBreak key 0, .done)
  | .delete key => (t.removeBreak key, .done)
  | .addOnHalfInterval left right addition => (t.addBetween left right addition, .done)
  | .getUpperKey key => (t, .key (t.keyAbove key))
  | .getUpperValue key => (t, .value (t.valueAbove key))
  | .getHalfIntervalKeys left right => (t, .keys ((t.between left right).map Prod.fst))
  | .getHalfIntervalValues left right => (t, .values ((t.between left right).map Prod.snd))

def Absent (t : Breaks T F) : Call T F → Prop
  | .insert key _ => key ∉ t.keys
  | _ => True

/-- A deletion loses nothing that waits in the deleted node. -/
def Keeps (root : Node T F) : Call T F → Prop
  | .delete key => KeepsBelow key 0 root
  | _ => True

def stepBoth (s : Node T F × Breaks T F) (c : Call T F) : Node T F × Breaks T F :=
  ((call s.1 c).1, (reference s.2 c).1)

def Answers (s : Node T F × Breaks T F) (c : Call T F) : Prop :=
  (call s.1 c).2 = (reference s.2 c).2

/-- The treap answers what the list answers, and holds what it holds afterwards. -/
def Right (s : Node T F × Breaks T F) (c : Call T F) : Prop :=
  Answers s c ∧ (call s.1 c).1.entries = (reference s.2 c).1

structure Holds (s : Node T F × Breaks T F) : Prop where
  entries : s.1.entries = s.2
  ascending : s.2.Ascending

variable {root : Node T F} {s : Node T F × Breaks T F}

theorem right_iff (hs : Holds s) (c : Call T F) : Right s c ↔ Keeps s.1 c := by
  obtain ⟨root, t⟩ := s
  obtain ⟨hentries, hasc⟩ := hs
  dsimp only at hentries hasc
  subst hentries
  have ht : Ordered root := ordered_iff.mpr hasc
  cases c with
  | insert key priority => exact iff_of_true ⟨rfl, entries_insert ht priority⟩ trivial
  | delete key => exact (and_iff_right rfl).trans (entriesWith_delete_iff ht 0)
  | addOnHalfInterval left right addition =>
      exact iff_of_true ⟨rfl, entries_addOnHalfInterval ht left right addition⟩ trivial
  | getUpperKey key =>
      obtain ⟨hentries, hanswer⟩ := entries_getUpperKey (k := key) ht
      exact iff_of_true ⟨congrArg Answer.key hanswer, hentries⟩ trivial
  | getUpperValue key =>
      obtain ⟨hentries, hanswer⟩ := entries_getUpperValue (k := key) ht
      exact iff_of_true ⟨congrArg Answer.value hanswer, hentries⟩ trivial
  | getHalfIntervalKeys left right =>
      obtain ⟨hentries, hanswer⟩ :=
        entries_getHalfInterval ht left right (fun key _ => key)
      exact iff_of_true ⟨congrArg Answer.keys hanswer, hentries⟩ trivial
  | getHalfIntervalValues left right =>
      obtain ⟨hentries, hanswer⟩ :=
        entries_getHalfInterval ht left right (fun _ value => value)
      exact iff_of_true ⟨congrArg Answer.values hanswer, hentries⟩ trivial

theorem ascending_reference {t : Breaks T F} (ht : t.Ascending) {c : Call T F}
    (habsent : Absent t c) : (reference t c).1.Ascending := by
  cases c with
  | insert key priority => exact ht.insertBreak habsent
  | delete key => exact ht.removeBreak
  | addOnHalfInterval left right addition => exact ht.addBetween
  | _ => exact ht

/-- In a run that inserts absent keys only, every call answers and leaves what the list does
exactly when no deletion loses an addition. -/
theorem run_right_iff (calls : List (Call T F))
    (habsent : StepsMeet stepBoth (fun s c => Absent s.2 c) (.null, []) calls) :
    StepsMeet stepBoth Right (.null, []) calls ↔
      StepsMeet stepBoth (fun s c => Keeps s.1 c) ((.null, []) : Node T F × Breaks T F) calls :=
  stepsMeet_congr Holds (fun _ c hs => right_iff hs c)
    (fun _ _ hs hc hright => ⟨hright.2, ascending_reference hs.ascending hc⟩)
    ⟨rfl, List.Pairwise.nil⟩ habsent

end Runs

section Examples

/-- Two keys, an addition to both, and the deletion of the one in whose node it waits. -/
def lostAddition : List (Call ℕ ℤ) :=
  [.insert 1 1, .insert 2 2, .addOnHalfInterval 0 2 5, .delete 2, .getUpperValue 0]

/-- The remaining key has lost the addition. -/
theorem not_run_answers :
    ¬ ∀ calls : List (Call ℕ ℤ),
      StepsMeet stepBoth (fun s c => Absent s.2 c) (.null, []) calls →
        StepsMeet stepBoth Answers (.null, []) calls := by
  intro h
  have habsent : StepsMeet stepBoth (fun s c => Absent s.2 c) (.null, []) lostAddition := by
    refine ⟨?_, ?_, trivial, trivial, trivial, trivial⟩
    · exact List.not_mem_nil
    · unfold Absent
      decide +kernel
  have hanswer := (h lostAddition habsent).2.2.2.2.1
  revert hanswer
  unfold Answers
  decide +kernel

/-- A deletion of a node in which nothing waits. -/
theorem run_right_settled :
    StepsMeet stepBoth Right ((.null, []) : Node ℕ ℤ × Breaks ℕ ℤ)
      [.insert 1 1, .insert 2 2, .addOnHalfInterval 0 2 5, .getUpperValue 1, .delete 1,
        .getHalfIntervalValues 0 9] := by
  refine (run_right_iff _ ?_).mpr ?_
  · refine ⟨?_, ?_, trivial, trivial, trivial, trivial, trivial⟩
    · exact List.not_mem_nil
    · unfold Absent
      decide +kernel
  · refine ⟨trivial, trivial, trivial, trivial, ?_, trivial, trivial⟩
    unfold Keeps
    decide +kernel

end Examples

end SegmentTreap
end LegacyEngine
end ContExchange
