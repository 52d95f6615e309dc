import Mathlib.Tactic.SplitIfs
import XmlDelta.Disk.Tree
import XmlDelta.Proofs.Except
import XmlDelta.Proofs.Text.Utf8

set_option autoImplicit false

namespace XmlDelta.Disk

namespace Node

theorem at?_append (n : Node) (p q : List String) :
    n.at? (p ++ q) = (n.at? p).bind (·.at? q) := by
  induction p generalizing n with
  | nil => rfl
  | cons c p ih =>
    simp only [List.cons_append, at?, Option.bind_assoc]
    exact congrArg _ (funext ih)

theorem child?_put_self (new : Node) (c : String) (p : List String) (n : Node) :
    (put new (c :: p) n).child? c = some (put new p ((n.child? c).getD (.directory []))) :=
  Keyed.get?_set_self c _ n.entries

theorem child?_put_of_ne (new : Node) {c d : String} (apart : c ≠ d) (p : List String) (n : Node) :
    (put new (c :: p) n).child? d = n.child? d :=
  Keyed.get?_set_of_ne _ n.entries apart

theorem at?_put (new : Node) (p : List String) (n : Node) : (put new p n).at? p = some new := by
  induction p generalizing n with
  | nil => rfl
  | cons c p ih => rw [at?, child?_put_self, Option.bind_some, ih]

def Keeps (n m : Node) : Prop :=
  ∀ p es, n.at? p = some (.directory es) →
    ∃ es', m.at? p = some (.directory es') ∧
      ∀ name, (Keyed.get? name es).isSome → (Keyed.get? name es').isSome

theorem keeps_put {n : Node} (new : Node) {p : List String}
    (free : ∀ es, n.at? p ≠ some (.directory es)) : Keeps n (put new p n) := by
  induction p generalizing n with
  | nil =>
    -- Nothing below what is no directory is one.
    cases n with
    | directory es => exact absurd rfl (free es)
    | file content =>
      intro q es found
      cases q <;> cases found
  | cons c p ih =>
    intro q es found
    cases q with
    | nil =>
      cases Option.some.inj found
      refine ⟨_, rfl, fun name inside => ?_⟩
      by_cases same : c = name
      · rw [same, Keyed.get?_set_self]
        rfl
      · rwa [Keyed.get?_set_of_ne _ _ same]
    | cons d q =>
      rw [at?] at found ⊢
      by_cases same : c = d
      · subst same
        obtain ⟨m, child, found⟩ := Option.bind_eq_some_iff.mp found
        rw [child?_put_self, child]
        refine ih (fun es' => ?_) q es found
        have here := free es'
        rwa [at?, child] at here
      · rw [child?_put_of_ne new same]
        exact ⟨es, found, fun _ inside => inside⟩

end Node

namespace Tree

variable {t : Tree} {p : Path} {place : Place} {name : String}

theorem walk_append (t : Tree) (p : Place) (xs ys : List (List Char)) :
    t.walk p (xs ++ ys) = t.walk p xs >>= fun q => t.walk q ys := by
  induction xs generalizing p with
  | nil => rfl
  | cons x xs ih =>
    simp only [List.cons_append, walk, bind_assoc, ih]

theorem enter_eq_ok_iff {q : Place} {part : List Char} :
    t.enter place part = .ok q ↔ ∃ es, t.node? place = some (.directory es) ∧
      if part = [] ∨ part = ['.'] then place = q
      else if part = ['.', '.'] then place.dropLast = q
      else byteCount part ≤ longestName ∧ (Keyed.get? (String.ofList part) es).isSome ∧
        place ++ [String.ofList part] = q := by
  unfold enter
  split
  · rename_i es here
    simp only [here, Option.some.injEq, Node.directory.injEq, exists_eq_left']
    split
    · simp only [Except.ok.injEq]
    split
    · simp only [Except.ok.injEq]
    split
    · rename_i long
      simp [Nat.not_le.mpr long]
    · rename_i short
      split <;> simp [*, Nat.le_of_not_lt short]
  · simp [*]
  · simp [*]

theorem enter_of_keeps {t u : Tree} (keeps : t.root.Keeps u.root) {p q : Place} {part : List Char}
    (entered : t.enter p part = .ok q) : u.enter p part = .ok q := by
  obtain ⟨es, here, there⟩ := enter_eq_ok_iff.mp entered
  obtain ⟨es', here', names⟩ := keeps p es here
  refine enter_eq_ok_iff.mpr ⟨es', here', ?_⟩
  split_ifs at there ⊢
  · exact there
  · exact there
  · exact ⟨there.1, names _ there.2.1, there.2.2⟩

theorem walk_of_keeps {t u : Tree} (keeps : t.root.Keeps u.root) {p q : Place}
    {parts : List (List Char)} (walked : t.walk p parts = .ok q) : u.walk p parts = .ok q := by
  induction parts generalizing p with
  | nil => exact walked
  | cons part parts ih =>
    obtain ⟨r, entered, walked⟩ := bind_eq_ok_iff.mp walked
    exact bind_eq_ok_iff.mpr ⟨r, enter_of_keeps keeps entered, ih walked⟩

theorem node?_append (t : Tree) {place : Place} {es : Keyed Node}
    (here : t.node? place = some (.directory es)) (name : String) :
    t.node? (place ++ [name]) = Keyed.get? name es := by
  rw [node?] at here ⊢
  rw [Node.at?_append, here, Option.bind_some, Node.at?]
  exact Option.bind_fun_some _

theorem split_of_target {p : Path} (unslashed : (target p).slashed = false) :
    Text.split '/' p.toList = (target p).above ++ [(target p).last] := by
  cases bare : (Text.split '/' p.toList).reverse.dropWhile (· == []) with
  | nil =>
    simp only [target, bare] at unslashed
    cases unslashed
  | cons l above =>
    simp only [target, bare] at unslashed ⊢
    have whole : (Text.split '/' p.toList).reverse.dropWhile (· == []) =
        (Text.split '/' p.toList).reverse := by
      refine (List.dropWhile_suffix _).eq_of_length_le ?_
      rw [bare]
      simpa using unslashed
    rw [← List.reverse_reverse (Text.split '/' p.toList), ← whole, bare, List.reverse_cons]

theorem Target.name_eq_ok_iff {g : Target} :
    g.name = .ok name ↔ byteCount g.last ≤ longestName ∧ String.ofList g.last = name := by
  unfold Target.name
  split
  · rename_i long
    simp [Nat.not_le.mpr long]
  · rename_i short
    simp [Nat.le_of_not_lt short]

theorem holder_eq_ok_iff {g : Target} {es : Keyed Node} :
    t.holder p g = .ok (place, es) ↔ checkPath p = .ok () ∧
      t.walk (t.origin p) g.above = .ok place ∧ t.node? place = some (.directory es) := by
  simp only [holder, bind_eq_ok_iff]
  constructor
  · rintro ⟨⟨⟩, allowed, place', walked, held⟩
    split at held
    · cases held
      exact ⟨allowed, walked, ‹_›⟩
    · cases held
    · cases held
  · rintro ⟨allowed, walked, here⟩
    exact ⟨(), allowed, place, walked, by rw [here]⟩

structure Slot (t : Tree) (p : Path) (place : Place) (name : String) : Prop where
  allowed : checkPath p = .ok ()
  walked : t.walk (t.origin p) (target p).above = .ok place
  held : ∃ es, t.node? place = some (.directory es)
  entry : ((target p).isDots || (target p).slashed) = false
  named : (target p).name = .ok name
  free : ∀ es, t.node? (place ++ [name]) ≠ some (.directory es)

theorem write_eq_ok_iff {content : List UInt8} {u : Tree} :
    t.write p content = .ok u ↔
      ∃ place name, t.Slot p place name ∧ u = t.putAt (place ++ [name]) (.file content) := by
  simp only [write, bind_eq_ok_iff]
  constructor
  · rintro ⟨⟨place, es⟩, holds, written⟩
    obtain ⟨allowed, walked, here⟩ := holder_eq_ok_iff.mp holds
    split at written
    · cases written
    rename_i entry
    obtain ⟨name, named, written⟩ := bind_eq_ok_iff.mp written
    split at written
    · cases written
    · rename_i free
      refine ⟨place, name, ⟨allowed, walked, ⟨es, here⟩, by simpa using entry, named, ?_⟩, ?_⟩
      · intro es'
        rw [t.node?_append here]
        exact free es'
      · exact (Except.ok.inj written).symm
  · rintro ⟨place, name, slot, rfl⟩
    obtain ⟨es, here⟩ := slot.held
    refine ⟨(place, es), holder_eq_ok_iff.mpr ⟨slot.allowed, slot.walked, here⟩, ?_⟩
    rw [slot.entry, if_neg Bool.false_ne_true]
    refine bind_eq_ok_iff.mpr ⟨name, slot.named, ?_⟩
    split
    · rename_i es' taken
      exact absurd ((t.node?_append here name).trans taken) (slot.free es')
    · rfl

theorem Slot.keeps (slot : t.Slot p place name) (n : Node) :
    t.root.Keeps (t.putAt (place ++ [name]) n).root :=
  Node.keeps_put n slot.free

theorem node?_putAt (t : Tree) (place : Place) (n : Node) : (t.putAt place n).node? place = some n :=
  Node.at?_put n place t.root

theorem Slot.putAt (slot : t.Slot p place name) (content : List UInt8) :
    (t.putAt (place ++ [name]) (.file content)).Slot p place name where
  allowed := slot.allowed
  walked := walk_of_keeps (slot.keeps _) slot.walked
  held := by
    obtain ⟨es, here⟩ := slot.held
    obtain ⟨es', there, -⟩ := slot.keeps (.file content) place es here
    exact ⟨es', there⟩
  entry := slot.entry
  named := slot.named
  free := by
    intro es
    rw [node?_putAt]
    nofun

theorem Slot.resolve_of_file {content : List UInt8} (slot : t.Slot p place name)
    (there : t.node? (place ++ [name]) = some (.file content)) :
    t.resolve p = .ok (place ++ [name]) := by
  obtain ⟨es, here⟩ := slot.held
  obtain ⟨noDots, unslashed⟩ := Bool.or_eq_false_iff.mp slot.entry
  simp only [Target.isDots, Bool.or_eq_false_iff, decide_eq_false_iff_not] at noDots
  obtain ⟨short, rfl⟩ := Target.name_eq_ok_iff.mp slot.named
  have present : (Keyed.get? (String.ofList (target p).last) es).isSome := by
    rw [← t.node?_append here, there]
    rfl
  have step : t.enter place (target p).last = .ok (place ++ [String.ofList (target p).last]) := by
    refine enter_eq_ok_iff.mpr ⟨es, here, ?_⟩
    rw [if_neg (not_or.mpr noDots.1), if_neg noDots.2]
    exact ⟨short, present, rfl⟩
  refine bind_eq_ok_iff.mpr ⟨(), slot.allowed, ?_⟩
  rw [split_of_target unslashed, walk_append]
  exact bind_eq_ok_iff.mpr ⟨place, slot.walked, bind_eq_ok_iff.mpr ⟨_, step, rfl⟩⟩

theorem Slot.read_putAt (slot : t.Slot p place name) (content : List UInt8) :
    (t.putAt (place ++ [name]) (.file content)).read p = .ok content := by
  have there := t.node?_putAt (place ++ [name]) (.file content)
  have found : (t.putAt (place ++ [name]) (.file content)).lookup p = .ok (.file content) :=
    bind_eq_ok_iff.mpr ⟨_, (slot.putAt content).resolve_of_file there, by rw [there]⟩
  rw [read, found]
  rfl

/-- Some content can be written under the path; which one makes no difference. -/
def Writable (t : Tree) (p : Path) : Prop :=
  ∃ content u, t.write p content = .ok u

theorem Writable.exists_write (writable : t.Writable p) (content : List UInt8) :
    ∃ u, t.write p content = .ok u ∧ u.read p = .ok content ∧ u.Writable p := by
  obtain ⟨other, v, written⟩ := writable
  obtain ⟨place, name, slot, -⟩ := write_eq_ok_iff.mp written
  have again := slot.putAt content
  exact ⟨_, write_eq_ok_iff.mpr ⟨place, name, slot, rfl⟩, slot.read_putAt content,
    content, _, write_eq_ok_iff.mpr ⟨place, name, again, rfl⟩⟩

theorem readText_of_bytes {bytes : List UInt8} (read : t.read p = .ok bytes) :
    t.readText p =
      match Text.Utf8.decode bytes with
      | some cs => .ok (String.ofList cs)
      | none => .error .notUtf8 := by
  rw [readText, read]
  rfl

theorem readText_of_error {e : IoError} (unread : t.read p = .error e) :
    t.readText p = .error e := by
  rw [readText, unread]
  rfl

theorem readText_of_read {s : String} (bytes : t.read p = .ok (Text.Utf8.encode s.toList)) :
    t.readText p = .ok s := by
  rw [readText_of_bytes bytes, Text.Utf8.decode_encode]
  simp only [String.ofList_toList]

end Tree

end XmlDelta.Disk
