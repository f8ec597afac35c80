import Mathlib.Data.List.TakeWhile
import SpecAudit.Proofs.Syntax.Layout
import SpecAudit.Syntax.Table

/-!
# Places of nodes

In a tree that is read from a table every node stands at the place of its offset:
its row is the number of line feeds in front of it.  A later offset has no earlier
place.  Where an offset lies between two characters of the text, the row counts
the line feeds among the characters in front.
-/

namespace SpecAudit.Syntax

/-! ## The bytes of a text -/

theorem toList_loop (bytes : ByteArray) (index : Nat) (read : List UInt8) :
    ByteArray.toList.loop bytes index read =
      read.reverse ++ bytes.data.toList.drop index := by
  induction index, read using ByteArray.toList.loop.induct bytes with
  | case1 index read before induction =>
      have inside : index < bytes.data.toList.length := by simpa using before
      have next : bytes.get! index = bytes.data.toList[index] := by
        simp [ByteArray.get!, before]
      rw [ByteArray.toList.loop, if_pos before, induction,
        List.drop_eq_getElem_cons inside, next]
      simp
  | case2 index read after =>
      have nothing : bytes.data.toList.drop index = [] :=
        List.drop_of_length_le (by simpa using after)
      rw [ByteArray.toList.loop, if_neg after, nothing, List.append_nil]

theorem toList_toUTF8 (text : String) :
    text.toUTF8.toList = text.toList.flatMap String.utf8EncodeChar := by
  rw [ByteArray.toList, toList_loop, String.toUTF8_eq_toByteArray,
    ← String.utf8Encode_toList]
  simp [List.utf8Encode]

/-- How many bytes characters take up. -/
def byteLength (characters : List Char) : Nat :=
  (characters.map Char.utf8Size).sum

theorem length_flatMap_utf8EncodeChar (characters : List Char) :
    (characters.flatMap String.utf8EncodeChar).length =
      byteLength characters := by
  rw [List.length_flatMap, byteLength]
  simp only [String.length_utf8EncodeChar]

theorem ne_ten_of_mem_utf8EncodeChar {character : Char} {byte : UInt8}
    (other : character ≠ '\n')
    (member : byte ∈ String.utf8EncodeChar character) : byte ≠ 10 := by
  have code : character.toNat ≠ 10 := fun same =>
    other (Char.ext (UInt32.toNat_inj.mp same))
  rintro rfl
  simp only [String.utf8EncodeChar] at member
  split at member
  · rename_i small
    have small : character.toNat ≤ 127 := small
    simp [← UInt8.toNat_inj] at member
    omega
  · split at member
    on_goal 2 => split at member
    -- Every byte of a longer sequence has its highest bit set.
    all_goals
      simp [← UInt8.toNat_inj] at member
      omega

/-- The line feed is the only character with a byte that is a line feed. -/
theorem count_utf8EncodeChar (character : Char) :
    (String.utf8EncodeChar character).count 10 = [character].count '\n' := by
  by_cases isFeed : character = '\n'
  · rw [isFeed]
    decide
  · rw [List.count_eq_zero_of_not_mem, List.count_eq_zero_of_not_mem]
    · simpa using Ne.symm isFeed
    · exact fun member => ne_ten_of_mem_utf8EncodeChar isFeed member rfl

theorem count_flatMap_utf8EncodeChar (characters : List Char) :
    (characters.flatMap String.utf8EncodeChar).count 10 =
      characters.count '\n' := by
  induction characters with
  | nil => rfl
  | cons character rest induction =>
      rw [List.flatMap_cons, List.count_append, induction,
        count_utf8EncodeChar, ← List.count_append]
      rfl

/-! ## The place of an offset -/

namespace Point

/-- The place behind some bytes. -/
def behind (bytes : List UInt8) : Point :=
  bytes.foldl advance ⟨0, 0⟩

/-- Whether a place is another one or stands in front of it. -/
def IsUpTo (left right : Point) : Prop :=
  left.row < right.row ∨ left.row = right.row ∧ left.column ≤ right.column

instance : DecidableRel IsUpTo :=
  fun _ _ => inferInstanceAs (Decidable (_ ∨ _))

theorem IsUpTo.refl (point : Point) : point.IsUpTo point :=
  .inr ⟨rfl, Nat.le_refl _⟩

theorem IsUpTo.trans {left middle right : Point} (first : left.IsUpTo middle)
    (second : middle.IsUpTo right) : left.IsUpTo right := by
  unfold IsUpTo at *
  omega

theorem isUpTo_advance (point : Point) (byte : UInt8) :
    point.IsUpTo (point.advance byte) := by
  rw [advance]
  split
  · exact .inl (Nat.lt_succ_self _)
  · exact .inr ⟨rfl, Nat.le_succ _⟩

theorem isUpTo_foldl (bytes : List UInt8) :
    ∀ point : Point, point.IsUpTo (bytes.foldl advance point) := by
  induction bytes with
  | nil => exact IsUpTo.refl
  | cons byte rest induction =>
      intro point
      exact (isUpTo_advance point byte).trans (induction _)

theorem row_foldl (bytes : List UInt8) :
    ∀ point : Point,
      (bytes.foldl advance point).row = point.row + bytes.count 10 := by
  induction bytes with
  | nil => exact fun _ => rfl
  | cons byte rest induction =>
      intro point
      rw [List.foldl_cons, induction, List.count_cons, advance]
      split
      · dsimp only
        omega
      · rfl

theorem row_behind (bytes : List UInt8) : (behind bytes).row = bytes.count 10 :=
  (row_foldl bytes _).trans (Nat.zero_add _)

end Point

/-- The place of an offset in a text. -/
def pointAt (text : String) (offset : Nat) : Point :=
  .behind (text.toUTF8.toList.take offset)

/-- A later offset has no earlier place. -/
theorem pointAt_isUpTo (text : String) {left right : Nat}
    (ordered : left ≤ right) :
    (pointAt text left).IsUpTo (pointAt text right) := by
  have split : text.toUTF8.toList.take right =
      text.toUTF8.toList.take left ++
        (text.toUTF8.toList.take right).drop left := by
    conv_lhs => rw [← List.take_append_drop left (text.toUTF8.toList.take right)]
    rw [List.take_take, Nat.min_eq_left ordered]
  rw [pointAt, pointAt, Point.behind, Point.behind, split, List.foldl_append]
  exact Point.isUpTo_foldl _ _

/-- The row of an offset counts the line feeds among the characters in front. -/
theorem row_pointAt {text : String} {before after : List Char}
    (split : text.toList = before ++ after) :
    (pointAt text (byteLength before)).row = before.count '\n' := by
  rw [pointAt, toList_toUTF8, split, List.flatMap_append,
    ← length_flatMap_utf8EncodeChar, List.take_left, Point.row_behind,
    count_flatMap_utf8EncodeChar]

/-! ## Trees that are read from tables -/

theorem toList_foldl_points (bytes : List UInt8) :
    ∀ (places : Array Point) (point : Point),
      (bytes.foldl (fun (state : Array Point × Point) byte =>
          let next := state.2.advance byte
          (state.1.push next, next)) (places.push point, point)).1.toList =
        places.toList ++ bytes.scanl Point.advance point := by
  induction bytes with
  | nil => simp
  | cons byte rest induction =>
      intro places point
      rw [List.foldl_cons, induction, List.scanl_cons]
      simp

/-- The places of a text are listed one after the other. -/
theorem toList_points (bytes : ByteArray) :
    (points bytes).toList = bytes.toList.scanl Point.advance ⟨0, 0⟩ :=
  toList_foldl_points bytes.toList #[] ⟨0, 0⟩

theorem getD_points {text : String} {offset : Nat}
    (inside : offset ≤ byteLength text.toList) :
    (points text.toUTF8).getD offset ⟨0, 0⟩ = pointAt text offset := by
  have within : offset ≤ text.toUTF8.toList.length := by
    rwa [toList_toUTF8, length_flatMap_utf8EncodeChar]
  rw [Array.getD_eq_getD_getElem?, ← Array.getElem?_toList, toList_points,
    List.getElem?_scanl, if_pos within]
  rfl

/-- Whether a node of a text stands at the place of its offset. -/
def Node.IsPlacedIn (text : String) (node : Node) : Prop :=
  node.label.startPoint = pointAt text node.label.start

/-- Whether the place of a node is looked up in the places of a text. -/
def Node.IsLookedUpIn (text : String) (node : Node) : Prop :=
  node.label.startPoint =
    (points text.toUTF8).getD node.label.start ⟨0, 0⟩

theorem isLookedUpIn_readNodes (text : String) :
    ∀ (fuel : Nat) (parent? : Option Nat) (rows : List (Nat × Row)),
      ∀ node ∈ Node.nodesOf (readNodes
          (Row.label text.toUTF8 (points text.toUTF8)) fuel parent? rows).1,
        node.IsLookedUpIn text := by
  intro fuel
  induction fuel with
  | zero => simp [readNodes, Node.nodesOf]
  | succ fuel induction =>
      intro parent? rows
      cases rows with
      | nil => simp [readNodes, Node.nodesOf]
      | cons first rest =>
          rcases first with ⟨id, row⟩
          rw [readNodes]
          split
          · cases inner : readNodes
                (Row.label text.toUTF8 (points text.toUTF8)) fuel (some id)
                rest with
            | mk children left =>
                have below := induction (some id) rest
                rw [inner] at below
                intro node member
                rw [Node.nodesOf, Node.nodes] at member
                rcases List.mem_append.mp member with own | beside
                · rcases List.mem_cons.mp own with rfl | lies
                  · rfl
                  · exact below node lies
                · exact induction parent? left node beside
          · simp [Node.nodesOf]

/-- The nodes of a tree that is read from a table are looked up by their
offsets. -/
theorem Tree.isLookedUpIn_ofRows (text : String) (hasError : Bool)
    (rows : List Row) :
    ∀ node ∈ (Tree.ofRows text hasError rows).root.nodes,
      node.IsLookedUpIn text := by
  intro node member
  let numbered := rows.mapIdx fun id row => (id, row)
  have each := isLookedUpIn_readNodes text rows.length none numbered
  simp only [Tree.ofRows] at member
  cases found : (readNodes (Row.label text.toUTF8 (points text.toUTF8))
      rows.length none numbered).1 with
  | nil =>
      rw [found] at member
      have isEmpty : node = emptyTree.root := by
        simpa [emptyTree, Node.nodes, Node.nodesOf] using member
      rw [isEmpty]
      exact (getD_points (Nat.zero_le _)).symm
  | cons first rest =>
      rw [found] at member each
      apply each node
      rw [Node.nodesOf]
      exact List.mem_append_left _ member

theorem Node.IsLookedUpIn.isPlacedIn {text : String} {node : Node}
    (lookedUp : node.IsLookedUpIn text)
    (inside : node.label.start ≤ byteLength text.toList) :
    node.IsPlacedIn text :=
  lookedUp.trans (getD_points inside)

end SpecAudit.Syntax
