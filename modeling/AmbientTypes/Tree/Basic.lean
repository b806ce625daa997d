namespace AmbientTypes

inductive Program
  /-- Puts `emit` where the last `--outFile` asks, prints and ends. -/
  | tool (emit : Option ByteArray) (stdout stderr : ByteArray) (exit : Nat)
  | shell
  | cat
  | succeed
  | fail

structure File where
  bytes : ByteArray
  program : Option Program := none

/-- Names of entries and targets of links are text in UTF-8. -/
inductive Tree
  | file (f : File)
  | link (target : String)
  | folder (entries : List (String × Tree))

abbrev Location := List String

namespace Tree

def isFolder : Tree → Bool
  | folder _ => true
  | _ => false

def empty : Tree := folder []

def alterEntry (name : String) (f : Option Tree → Option Tree) :
    List (String × Tree) → List (String × Tree)
  | [] => (f none).toList.map (name, ·)
  | e :: es =>
    if e.1 = name then (f (some e.2)).toList.map (name, ·) ++ es.filter (·.1 != name)
    else e :: alterEntry name f es

def get? : Tree → Location → Option Tree
  | t, [] => some t
  | folder es, n :: l =>
    match es.lookup n with
    | some t => get? t l
    | none => none
  | _, _ :: _ => none

def alter (f : Option Tree → Option Tree) : Location → Option Tree → Option Tree
  | [], t => f t
  | n :: l, some (folder es) => some (folder (alterEntry n (alter f l) es))
  | _ :: _, t => t

/-- The top always stays. -/
def put (t : Tree) (l : Location) (entry : Tree) : Tree :=
  (alter (fun _ ↦ some entry) l (some t)).getD t

def remove (t : Tree) (l : Location) : Tree :=
  (alter (fun _ ↦ none) l (some t)).getD t

theorem lookup_filter_ne (name other : String) (es : List (String × Tree)) :
    (es.filter (·.1 != name)).lookup other = if other = name then none else es.lookup other := by
  induction es with
  | nil => simp
  | cons e es ih =>
    obtain ⟨n, t⟩ := e
    rw [List.filter_cons, List.lookup_cons]
    by_cases ho : other = n
    · subst ho
      by_cases hn : other = name
      · rw [if_neg (by simpa using hn), ih, if_pos hn, if_pos hn]
      · simp [hn]
    · have hb : (other == n) = false := by simpa using ho
      by_cases hn : n = name
      · rw [if_neg (by simpa using hn), ih, hb]
      · rw [if_pos (by simpa using hn), List.lookup_cons, hb, ih]

theorem lookup_alterEntry (name other : String) (f : Option Tree → Option Tree)
    (es : List (String × Tree)) (h : other ≠ name) :
    (alterEntry name f es).lookup other = es.lookup other := by
  have hb : (other == name) = false := by simpa using h
  induction es with
  | nil => cases hf : f none <;> simp [alterEntry, hf, List.lookup_cons, hb]
  | cons e es ih =>
    obtain ⟨n, t⟩ := e
    by_cases hn : n = name
    · subst hn
      cases hf : f (some t) <;> simp [alterEntry, hf, List.lookup_cons, hb, lookup_filter_ne, h]
    · rw [alterEntry, if_neg hn, List.lookup_cons, List.lookup_cons, ih]

theorem lookup_alterEntry_self (name : String) (f : Option Tree → Option Tree)
    (es : List (String × Tree)) : (alterEntry name f es).lookup name = f (es.lookup name) := by
  induction es with
  | nil => cases hf : f none <;> simp [alterEntry, hf]
  | cons e es ih =>
    obtain ⟨n, t⟩ := e
    by_cases hn : n = name
    · subst hn
      cases hf : f (some t) <;> simp [alterEntry, hf, lookup_filter_ne]
    · have hb : (name == n) = false := by simpa using fun h ↦ hn h.symm
      simp [alterEntry, hn, List.lookup_cons, hb, ih]

end Tree

end AmbientTypes
