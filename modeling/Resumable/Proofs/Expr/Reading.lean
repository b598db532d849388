import Resumable.Proofs.Expr.Precedence

/-!
# Reading phrases from tokens

The readers of the grammar are tied to the tokens of phrases: what a reader finds is written at the
start of the tokens, and what is written there is found.

## The model

* `Sound` and `Complete`: the two halves for any reader, with a writer beside it. `Complete` says
  what the tokens behind must not be, as a reader takes as much as it can.
* `Phrase.nesting`: how many brackets of a phrase are open at once.

## What is proved

Each reader of the grammar is sound and complete if the reader for what stands between brackets is.
Tied together, this gives `sound_phrase?`, and `complete_phrase?` for phrases that nest no deeper
than the reader may go.
-/

namespace Resumable.Expr

/-- Whether a phrase can start with a token. -/
def Token.isStart : Token → Bool
  | .name _ => true
  | .number _ => true
  | .text _ _ => true
  | .opening _ => true
  | .bang => true
  | .op .sub => true
  | _ => false

/-- Whether a token reads a property of the phrase before it. -/
def Token.isLink : Token → Bool
  | .dot => true
  | .opening .square => true
  | _ => false

/-- Whether a token is an operator between operands. -/
def Token.isOp : Token → Bool
  | .op _ => true
  | _ => false

theorem Keyword.ofName?_word (k : Keyword) : Keyword.ofName? k.word = some k := by
  cases k <;> rfl

theorem Keyword.word_of_ofName? {w : String} {k : Keyword} (h : Keyword.ofName? w = some k) :
    k.word = w := by
  unfold Keyword.ofName? at h
  split at h <;> cases h
  all_goals rfl

/-- Whether a token is a sign before an operand. -/
def Token.isSign : Token → Bool
  | .bang => true
  | .op .sub => true
  | _ => false

namespace Phrase

variable {α : Type} {inner : Reader Phrase} {read : Reader α} {write : α → List Token}
  {Good : α → Prop} {ts rest : List Token} {n m : Nat}

/-! ### Readers and writers -/

/-- A reader finds only good things, and only what is written at the start. -/
def Sound (read : Reader α) (write : α → List Token) (Good : α → Prop) : Prop :=
  ∀ ts a rest, read ts = some (a, rest) → Good a ∧ ts = write a ++ rest

/-- A reader finds every good thing that is written at the start, if what follows cannot be drawn
into it. -/
def Complete (read : Reader α) (write : α → List Token) (Good : α → Prop)
    (Stops : List Token → Prop) : Prop :=
  ∀ a rest, Good a → Stops rest → read (write a ++ rest) = some (a, rest)

/-- The next token is not one of a kind. -/
def Stops (kind : Token → Bool) (rest : List Token) : Prop := ∀ t ∈ rest.head?, kind t = false

theorem stops_nil {kind : Token → Bool} : Stops kind [] := by simp [Stops]

theorem stops_cons {kind : Token → Bool} {t : Token} (h : kind t = false) (ts : List Token) :
    Stops kind (t :: ts) := by
  simp [Stops, h]

theorem Stops.head {kind : Token → Bool} {t : Token} (h : Stops kind (t :: ts)) : kind t = false :=
  h t rfl

/-- The next token goes on with no phrase. -/
def EndsPhrase (rest : List Token) : Prop := Stops Token.isLink rest ∧ Stops Token.isOp rest

/-! ### How phrases start and nest -/

/-- Tokens start as a phrase does. -/
def Starts (ts : List Token) : Prop := ∃ t us, ts = t :: us ∧ t.isStart = true

theorem Starts.append (h : Starts ts) (us : List Token) : Starts (ts ++ us) := by
  obtain ⟨t, ts, rfl, ht⟩ := h
  exact ⟨t, ts ++ us, rfl, ht⟩

theorem starts_tokens : ∀ p : Phrase, Starts p.tokens
  | .keyword _ => ⟨_, _, rfl, rfl⟩
  | .number _ => ⟨_, _, rfl, rfl⟩
  | .text _ _ => ⟨_, _, rfl, rfl⟩
  | .name _ => ⟨_, _, rfl, rfl⟩
  | .group _ => ⟨_, _, rfl, rfl⟩
  | .object _ _ => ⟨_, _, rfl, rfl⟩
  | .array _ _ => ⟨_, _, rfl, rfl⟩
  | .member p n => (starts_tokens p).append [.dot, .name n]
  | .index p i => by
    rw [tokens]
    exact (starts_tokens p).append _
  | .unary .not _ => ⟨_, _, rfl, rfl⟩
  | .unary .neg _ => ⟨_, _, rfl, rfl⟩
  | .binary op l r => (starts_tokens l).append (.op op :: r.tokens)

theorem starts_propertyTokens (kp : Key × Phrase) : Starts (propertyTokens kp) := by
  obtain ⟨k, p⟩ := kp
  cases k <;> exact ⟨_, _, rfl, rfl⟩

mutual
/-- How many brackets of a phrase are open at once where it nests deepest. -/
def nesting : Phrase → Nat
  | .keyword _ => 0
  | .number _ => 0
  | .text _ _ => 0
  | .name _ => 0
  | .group p => p.nesting + 1
  | .object props _ => propsNesting props + 1
  | .array items _ => itemsNesting items + 1
  | .member p _ => p.nesting
  | .index p i => max p.nesting (i.nesting + 1)
  | .unary _ p => p.nesting
  | .binary _ l r => max l.nesting r.nesting

/-- The deepest nesting among the values of properties. -/
def propsNesting : List (Key × Phrase) → Nat
  | [] => 0
  | (_, p) :: ps => max p.nesting (propsNesting ps)

/-- The deepest nesting among items. -/
def itemsNesting : List Phrase → Nat
  | [] => 0
  | p :: ps => max p.nesting (itemsNesting ps)
end

theorem nesting_le_items {p : Phrase} {ps : List Phrase} (h : p ∈ ps) :
    p.nesting ≤ itemsNesting ps := by
  induction ps with
  | nil => simp at h
  | cons q ps ih =>
    rw [itemsNesting]
    rcases List.mem_cons.mp h with rfl | h
    · exact Nat.le_max_left _ _
    · exact Nat.le_trans (ih h) (Nat.le_max_right _ _)

theorem nesting_le_props {kp : Key × Phrase} {ps : List (Key × Phrase)} (h : kp ∈ ps) :
    kp.2.nesting ≤ propsNesting ps := by
  induction ps with
  | nil => simp at h
  | cons q ps ih =>
    rw [propsNesting]
    rcases List.mem_cons.mp h with rfl | h
    · exact Nat.le_max_left _ _
    · exact Nat.le_trans (ih h) (Nat.le_max_right _ _)

/-! ### Members between brackets -/

variable {close : Bracket} {as : List α} {trailing : Bool}

theorem listed_singleton (close : Bracket) (piece : List Token) (trailing : Bool) :
    listed close [piece] trailing =
      piece ++ ((if trailing then [.comma] else []) ++ [.closing close]) := by
  simp [listed]

theorem listed_cons_cons (close : Bracket) (a b : List Token) (pieces : List (List Token))
    (trailing : Bool) :
    listed close (a :: b :: pieces) trailing =
      a ++ .comma :: listed close (b :: pieces) trailing := by
  simp [listed, List.intercalate]

theorem starts_listed {a : List Token} (h : Starts a) (close : Bracket)
    (pieces : List (List Token)) (trailing : Bool) :
    Starts (listed close (a :: pieces) trailing) := by
  cases pieces with
  | nil =>
    rw [listed_singleton]
    exact h.append _
  | cons b pieces =>
    rw [listed_cons_cons]
    exact h.append _

theorem length_le_listed {pieces : List (List Token)} (h : ∀ piece ∈ pieces, Starts piece)
    (close : Bracket) (trailing : Bool) :
    pieces.length ≤ (listed close pieces trailing).length := by
  induction pieces with
  | nil => exact Nat.zero_le _
  | cons a pieces ih =>
    obtain ⟨t, us, rfl, -⟩ := h a (List.mem_cons_self ..)
    have hothers := ih fun piece hpiece => h piece (List.mem_cons_of_mem _ hpiece)
    cases pieces with
    | nil => simp [listed_singleton]
    | cons b pieces =>
      rw [listed_cons_cons]
      simp only [List.length_cons, List.length_append] at hothers ⊢
      omega

theorem sound_members (h : Sound read write Good) :
    Sound (members close read n) (fun x => listed close (x.1.map write) x.2)
      (fun x => x.1 ≠ [] ∧ ∀ a ∈ x.1, Good a) := by
  induction n with
  | zero => intro ts a rest hread; simp [members] at hread
  | succ n ih =>
    rintro ts ⟨as, trailing⟩ rest hread
    rw [members] at hread
    obtain ⟨⟨a, us⟩, hfirst, hmore⟩ := Option.bind_eq_some_iff.mp hread
    obtain ⟨ha, rfl⟩ := h ts a us hfirst
    dsimp only at hmore
    split at hmore
    · split at hmore
      · rename_i hb
        obtain ⟨⟨rfl, rfl⟩, rfl⟩ : ([a] = as ∧ false = trailing) ∧ _ = rest := by simpa using hmore
        simp [listed_singleton, ha, hb]
      · simp at hmore
    · split at hmore
      · rename_i hb
        obtain ⟨⟨rfl, rfl⟩, rfl⟩ : ([a] = as ∧ true = trailing) ∧ _ = rest := by simpa using hmore
        simp [listed_singleton, ha, hb]
      · simp at hmore
    · obtain ⟨⟨⟨bs, more⟩, us'⟩, hothers, heq⟩ := Option.bind_eq_some_iff.mp hmore
      obtain ⟨⟨rfl, rfl⟩, rfl⟩ : (a :: bs = as ∧ more = trailing) ∧ us' = rest := by simpa using heq
      obtain ⟨⟨hne, hbs⟩, rfl⟩ := ih _ _ _ hothers
      obtain ⟨b, bs, rfl⟩ := List.exists_cons_of_ne_nil hne
      refine ⟨⟨by simp, fun x hx => ?_⟩, ?_⟩
      · rcases List.mem_cons.mp hx with rfl | hx
        · exact ha
        · exact hbs x hx
      · simp only [List.map_cons, listed_cons_cons]
        simp
    · simp at hmore

/-- Members are found if each of them is, and none starts as a closing bracket. -/
theorem complete_members (h : Complete read write Good EndsPhrase)
    (hstart : ∀ a, Starts (write a)) :
    Complete (members close read n) (fun x => listed close (x.1.map write) x.2)
      (fun x => x.1 ≠ [] ∧ (∀ a ∈ x.1, Good a) ∧ x.1.length ≤ n) (fun _ => True) := by
  induction n with
  | zero => rintro ⟨as, trailing⟩ rest ⟨hne, -, hlen⟩ -; simp_all
  | succ n ih =>
    rintro ⟨as, trailing⟩ rest ⟨hne, has, hlen⟩ -
    obtain ⟨a, as, rfl⟩ := List.exists_cons_of_ne_nil hne
    have ha := has a (List.mem_cons_self ..)
    dsimp only at has hlen ⊢
    cases as with
    | nil =>
      rw [List.map_singleton, listed_singleton, List.append_assoc, members]
      cases trailing with
      | false =>
        have := h a (.closing close :: rest) ha ⟨stops_cons rfl _, stops_cons rfl _⟩
        simp [this]
      | true =>
        have := h a (.comma :: .closing close :: rest) ha ⟨stops_cons rfl _, stops_cons rfl _⟩
        simp [this]
    | cons b bs =>
      have hothers := ih (b :: bs, trailing) rest
        ⟨by simp, fun x hx => has x (List.mem_cons_of_mem _ hx), by simpa using hlen⟩ trivial
      -- The next member starts as a phrase does, so the comma is not the last one.
      obtain ⟨t, us, hus, ht⟩ : Starts (listed close ((b :: bs).map write) trailing ++ rest) :=
        (starts_listed (hstart b) close (bs.map write) trailing).append rest
      have hfirst := h a (.comma :: t :: us) ha ⟨stops_cons rfl _, stops_cons rfl _⟩
      rw [List.map_cons, List.map_cons, listed_cons_cons, ← List.map_cons, List.append_assoc,
        List.cons_append, hus, members, hfirst]
      rw [hus] at hothers
      cases t with
      | closing => simp [Token.isStart] at ht
      | _ => simp [hothers]

/-- Only behind a member there is a last comma. -/
theorem sound_enclosed (h : Sound read write Good) :
    Sound (enclosed close read) (fun x => listed close (x.1.map write) x.2)
      (fun x => (∀ a ∈ x.1, Good a) ∧ (x.2 = true → x.1 ≠ [])) := by
  rintro ts ⟨as, trailing⟩ rest hread
  unfold enclosed at hread
  split at hread
  · split at hread
    · rename_i hb
      obtain ⟨⟨rfl, rfl⟩, rfl⟩ : ([] = as ∧ false = trailing) ∧ _ = rest := by simpa using hread
      simp [listed, hb]
    · simp at hread
  · obtain ⟨⟨hne, has⟩, rfl⟩ := sound_members h _ _ _ hread
    exact ⟨⟨has, fun _ => hne⟩, rfl⟩

theorem complete_enclosed (h : Complete read write Good EndsPhrase)
    (hstart : ∀ a, Starts (write a)) :
    Complete (enclosed close read) (fun x => listed close (x.1.map write) x.2)
      (fun x => (∀ a ∈ x.1, Good a) ∧ (x.2 = true → x.1 ≠ [])) (fun _ => True) := by
  rintro ⟨as, trailing⟩ rest ⟨has, hlast⟩ -
  dsimp only at has hlast ⊢
  by_cases hne : as = []
  · subst hne
    obtain rfl : trailing = false := by simpa using hlast
    simp [listed, enclosed]
  · obtain ⟨a, as, rfl⟩ := List.exists_cons_of_ne_nil hne
    have hstarts : ∀ piece ∈ (a :: as).map write, Starts piece := by
      intro piece hpiece
      obtain ⟨b, -, rfl⟩ := List.mem_map.mp hpiece
      exact hstart b
    have hlen : (a :: as).length ≤
        (listed close ((a :: as).map write) trailing ++ rest).length := by
      have := length_le_listed hstarts close trailing
      rw [List.length_map] at this
      rw [List.length_append]
      exact Nat.le_add_right_of_le this
    have hmembers : members close read _ _ = _ :=
      complete_members h hstart (a :: as, trailing) rest ⟨hne, has, hlen⟩ trivial
    obtain ⟨t, us, hus, ht⟩ : Starts (listed close ((a :: as).map write) trailing ++ rest) :=
      (starts_listed (hstart a) close (as.map write) trailing).append rest
    dsimp only at hmembers
    rw [hus] at hmembers ⊢
    cases t with
    | closing => simp [Token.isStart] at ht
    | _ => exact hmembers

/-- A property of an object literal: a name, a colon and a phrase. -/
theorem sound_property (h : Sound inner tokens Fits) :
    Sound (property inner) propertyTokens (fun kp => Fits kp.2) := by
  rintro ts ⟨k, p⟩ rest hread
  unfold property at hread
  dsimp only at hread
  split at hread
  case h_4 => simp at hread
  all_goals
    simp only [Option.bind_eq_bind, Option.bind_some] at hread
    split at hread
    · obtain ⟨⟨q, us⟩, hphrase, heq⟩ := Option.bind_eq_some_iff.mp hread
      cases heq
      obtain ⟨hp, rfl⟩ := h _ _ _ hphrase
      exact ⟨hp, rfl⟩
    · simp at hread

theorem complete_property {Good : Phrase → Prop} (h : Complete inner tokens Good EndsPhrase) :
    Complete (property inner) propertyTokens (fun kp => Good kp.2) EndsPhrase := by
  rintro ⟨k, p⟩ rest hp hrest
  have := h p rest hp hrest
  cases k <;> simp [property, propertyTokens, Key.token, this]

/-! ### Atoms -/

/-- What an atom finds binds tightest. -/
theorem sound_atom (h : Sound inner tokens Fits) :
    Sound (atom inner) tokens (fun p => Fits p ∧ p.tier = 8) := by
  intro ts p rest hread
  unfold atom at hread
  split at hread
  · split at hread
    · rename_i k hk
      cases hread
      exact ⟨⟨.keyword k, rfl⟩, by rw [tokens, Keyword.word_of_ofName? hk]; rfl⟩
    · rename_i hk
      cases hread
      exact ⟨⟨.name hk, rfl⟩, rfl⟩
  · cases hread
    exact ⟨⟨.number _, rfl⟩, rfl⟩
  · cases hread
    exact ⟨⟨.text _ _, rfl⟩, rfl⟩
  · obtain ⟨⟨q, us⟩, hinner, hclose⟩ := Option.bind_eq_some_iff.mp hread
    obtain ⟨hq, rfl⟩ := h _ _ _ hinner
    dsimp only at hclose
    split at hclose
    · cases hclose
      exact ⟨⟨.group hq, rfl⟩, by simp [tokens]⟩
    · simp at hclose
  · obtain ⟨⟨⟨items, trailing⟩, us⟩, hitems, heq⟩ := Option.bind_eq_some_iff.mp hread
    cases heq
    obtain ⟨⟨hvalues, hlast⟩, rfl⟩ := sound_enclosed h _ _ _ hitems
    exact ⟨⟨.array hvalues hlast, rfl⟩, by rw [tokens, itemTokens_eq_map]; rfl⟩
  · obtain ⟨⟨⟨props, trailing⟩, us⟩, hprops, heq⟩ := Option.bind_eq_some_iff.mp hread
    cases heq
    obtain ⟨⟨hvalues, hlast⟩, rfl⟩ := sound_enclosed (sound_property h) _ _ _ hprops
    exact ⟨⟨.object hvalues hlast, rfl⟩, by rw [tokens, propTokens_eq_map]; rfl⟩
  · simp at hread

/-- Whether a phrase is a literal, a name, or in brackets. -/
def isAtom : Phrase → Bool
  | .member _ _ => false
  | .index _ _ => false
  | .unary _ _ => false
  | .binary _ _ _ => false
  | _ => true

/-- What the reader for brackets has to find, so that phrases which nest to a depth are found
around it. -/
def CompleteBelow (inner : Reader Phrase) (m : Nat) : Prop :=
  Complete inner tokens (fun p => Fits p ∧ p.nesting < m) EndsPhrase

theorem complete_atom (h : CompleteBelow inner m) :
    Complete (atom inner) tokens (fun p => Fits p ∧ p.isAtom = true ∧ p.nesting ≤ m)
      (fun _ => True) := by
  rintro p rest ⟨hfits, hatom, hnesting⟩ -
  cases hfits with
  | keyword k => simp [tokens, atom, Keyword.ofName?_word]
  | number x => rfl
  | text quote s => rfl
  | name free => simp [tokens, atom, free]
  | @group p inside =>
    have := h p (.closing .round :: rest) ⟨inside, hnesting⟩ ⟨stops_cons rfl _, stops_cons rfl _⟩
    simp [tokens, atom, this]
  | @object props trailing values last =>
    have hprops : enclosed .curly (property inner) _ = _ :=
      complete_enclosed (complete_property h) starts_propertyTokens (props, trailing) rest
        ⟨fun kp hkp => ⟨values kp hkp, Nat.lt_of_le_of_lt (nesting_le_props hkp) hnesting⟩, last⟩
        trivial
    simp [tokens, atom, propTokens_eq_map, hprops]
  | @array items trailing values last =>
    have hitems : enclosed .square inner _ = _ :=
      complete_enclosed h starts_tokens (items, trailing) rest
        ⟨fun p hp => ⟨values p hp, Nat.lt_of_le_of_lt (nesting_le_items hp) hnesting⟩, last⟩
        trivial
    simp [tokens, atom, itemTokens_eq_map, hitems]
  | member | index | unary | binary => simp [isAtom] at hatom

/-! ### Operands -/

/-- The property reads behind a phrase are taken into it. -/
theorem sound_links (h : Sound inner tokens Fits) {p q : Phrase} (hp : Fits p ∧ p.tier = 8)
    (hread : links inner n p ts = some (q, rest)) :
    (Fits q ∧ q.tier = 8) ∧ p.tokens ++ ts = q.tokens ++ rest := by
  fun_induction links inner n p ts with
  | case1 n p name ts ih =>
    obtain ⟨hq, heq⟩ := ih ⟨.member hp.1 hp.2, rfl⟩ hread
    exact ⟨hq, by rw [← heq]; simp [tokens]⟩
  | case2 n p ts ih =>
    obtain ⟨⟨i, us⟩, hinner, hclose⟩ := Option.bind_eq_some_iff.mp hread
    obtain ⟨hi, rfl⟩ := h _ _ _ hinner
    dsimp only at hclose
    split at hclose
    · rename_i us
      obtain ⟨hq, heq⟩ := ih i us ⟨.index hp.1 hp.2 hi, rfl⟩ hclose
      exact ⟨hq, by rw [← heq]; simp [tokens]⟩
    · simp at hclose
  | case3 =>
    cases hread
    exact ⟨hp, rfl⟩

theorem links_of_stops {p : Phrase} (h : Stops Token.isLink rest) :
    links inner n p rest = some (p, rest) := by
  unfold links
  split
  · exact absurd h.head (by decide)
  · exact absurd h.head (by decide)
  · rfl

/-- An atom with the property reads behind it. -/
def reads (inner : Reader Phrase) : Reader Phrase := fun ts =>
  (atom inner ts).bind fun x => links inner x.2.length x.1 x.2

theorem reads_atom (h : CompleteBelow inner m) {p : Phrase} (hp : Fits p)
    (hatom : p.isAtom = true) (hnesting : p.nesting ≤ m) (rest : List Token) :
    ∃ n, rest.length ≤ n ∧ reads inner (p.tokens ++ rest) = links inner n p rest := by
  refine ⟨rest.length, Nat.le_refl _, ?_⟩
  rw [reads, complete_atom h p rest ⟨hp, hatom, hnesting⟩ trivial, Option.bind_some]

/-- Reading a phrase without operators comes to where only what follows it can still be taken. -/
theorem reads_append (h : CompleteBelow inner m) {p : Phrase} (hp : Fits p) (htight : p.tier = 8)
    (hnesting : p.nesting ≤ m) (rest : List Token) :
    ∃ n, rest.length ≤ n ∧ reads inner (p.tokens ++ rest) = links inner n p rest := by
  induction hp generalizing rest with
  | @member p name base tight ih =>
    obtain ⟨n, hn, hreads⟩ := ih tight hnesting (.dot :: .name name :: rest)
    obtain ⟨n, rfl⟩ : ∃ k, n = k + 1 := ⟨n - 1, by simp only [List.length_cons] at hn; omega⟩
    refine ⟨n, by simp only [List.length_cons] at hn; omega, ?_⟩
    rw [tokens, List.append_assoc]
    exact hreads
  | @index p i base tight subscript ih _ =>
    rw [nesting] at hnesting
    obtain ⟨n, hn, hreads⟩ := ih tight (by omega)
      (.opening .square :: (i.tokens ++ .closing .square :: rest))
    obtain ⟨n, rfl⟩ : ∃ k, n = k + 1 := ⟨n - 1, by simp only [List.length_cons] at hn; omega⟩
    refine ⟨n, by simp only [List.length_cons, List.length_append] at hn; omega, ?_⟩
    have hinner := h i (.closing .square :: rest) ⟨subscript, by omega⟩
      ⟨stops_cons rfl _, stops_cons rfl _⟩
    rw [tokens, List.append_assoc, List.cons_append, List.append_assoc, List.singleton_append,
      hreads, links, hinner]
    rfl
  | unary => simp [tier] at htight
  | @binary op =>
    have := tier_le_six op
    simp only [tier] at htight
    omega
  | _ => exact reads_atom h (by constructor <;> assumption) rfl hnesting rest

/-- Without a sign before it, an operand is an atom with property reads. -/
theorem operand_of_stops (h : Stops Token.isSign ts) : operand inner ts = reads inner ts := by
  unfold operand
  split
  · exact absurd h.head (by decide)
  · exact absurd h.head (by decide)
  · rfl

/-- A phrase without operators starts with no sign. -/
theorem Fits.stops_isSign {p : Phrase} (hp : Fits p) (htight : p.tier = 8) (rest : List Token) :
    Stops Token.isSign (p.tokens ++ rest) := by
  induction hp generalizing rest with
  | keyword | number | text | name | group | object | array => exact stops_cons rfl _
  | member base tight ih =>
    rw [tokens, List.append_assoc]
    exact ih tight _
  | index base tight subscript ih _ =>
    rw [tokens, List.append_assoc]
    exact ih tight _
  | unary => simp [tier] at htight
  | @binary op =>
    have := tier_le_six op
    simp only [tier] at htight
    omega

theorem sound_operand (h : Sound inner tokens Fits) :
    Sound (operand inner) tokens IsOperand := by
  intro ts p rest hread
  fun_induction operand inner ts generalizing p with
  | case1 ts ih =>
    obtain ⟨⟨q, us⟩, hoperand, heq⟩ := Option.map_eq_some_iff.mp hread
    cases heq
    obtain ⟨hq, rfl⟩ := ih q hoperand
    exact ⟨⟨.unary hq.fits hq.tight, Nat.le_refl _⟩, rfl⟩
  | case2 ts ih =>
    obtain ⟨⟨q, us⟩, hoperand, heq⟩ := Option.map_eq_some_iff.mp hread
    cases heq
    obtain ⟨hq, rfl⟩ := ih q hoperand
    exact ⟨⟨.unary hq.fits hq.tight, Nat.le_refl _⟩, rfl⟩
  | case3 ts =>
    obtain ⟨⟨q, us⟩, hatom, hlinks⟩ := Option.bind_eq_some_iff.mp hread
    obtain ⟨hq, rfl⟩ := sound_atom h _ _ _ hatom
    obtain ⟨⟨hfits, htight⟩, heq⟩ := sound_links h hq hlinks
    exact ⟨⟨hfits, by omega⟩, heq⟩

theorem complete_operand (h : CompleteBelow inner m) :
    Complete (operand inner) tokens (fun p => IsOperand p ∧ p.nesting ≤ m)
      (Stops Token.isLink) := by
  rintro p rest ⟨⟨hfits, htight⟩, hnesting⟩ hrest
  have ofTight : ∀ {q : Phrase}, Fits q → q.tier = 8 → q.nesting ≤ m →
      operand inner (q.tokens ++ rest) = some (q, rest) := by
    intro q hq htier hle
    obtain ⟨n, -, hreads⟩ := reads_append h hq htier hle rest
    rw [operand_of_stops (hq.stops_isSign htier rest), hreads, links_of_stops hrest]
  induction hfits with
  | @unary op p inside tight ih =>
    have := ih hnesting tight
    cases op <;> simp [tokens, UnaryOp.token, operand, this]
  | @binary op =>
    have := tier_le_six op
    simp only [tier] at htight
    omega
  | _ => exact ofTight (by constructor <;> assumption) rfl hnesting

/-! ### Rows and whole phrases -/

theorem sound_row (h : Sound inner tokens Fits) :
    Sound (row inner n) rowTokens (fun r => ∀ x ∈ r, IsOperand x.2) := by
  intro ts r rest hread
  fun_induction row inner n ts generalizing r with
  | case1 n op ts ih =>
    obtain ⟨⟨p, us⟩, hoperand, hmore⟩ := Option.bind_eq_some_iff.mp hread
    obtain ⟨⟨ps, us'⟩, hothers, heq⟩ := Option.bind_eq_some_iff.mp hmore
    cases heq
    obtain ⟨hp, rfl⟩ := sound_operand h _ _ _ hoperand
    obtain ⟨hps, rfl⟩ := ih _ _ hothers
    refine ⟨fun x hx => ?_, by simp⟩
    rcases List.mem_cons.mp hx with rfl | hx
    · exact hp
    · exact hps x hx
  | case2 =>
    cases hread
    exact ⟨by simp, rfl⟩

/-- A row goes on with an operator or is over, so that no property read follows an operand. -/
theorem stops_isLink_rowTokens (r : List (BinaryOp × Phrase)) (hrest : EndsPhrase rest) :
    Stops Token.isLink (rowTokens r ++ rest) := by
  cases r with
  | nil => exact hrest.1
  | cons x r => exact stops_cons rfl _

theorem complete_row (h : CompleteBelow inner m) :
    Complete (row inner n) rowTokens
      (fun r => (∀ x ∈ r, IsOperand x.2 ∧ x.2.nesting ≤ m) ∧ r.length ≤ n) EndsPhrase := by
  rintro r rest ⟨hr, hlen⟩ hrest
  induction r generalizing n with
  | nil =>
    rw [rowTokens_nil, List.nil_append]
    unfold row
    split
    · exact absurd hrest.2.head (by simp [Token.isOp])
    · rfl
  | cons x r ih =>
    obtain ⟨op, p⟩ := x
    obtain ⟨n, rfl⟩ : ∃ k, n = k + 1 := ⟨n - 1, by simp only [List.length_cons] at hlen; omega⟩
    have hoperand := complete_operand h p (rowTokens r ++ rest) (hr _ (List.mem_cons_self ..))
      (stops_isLink_rowTokens r hrest)
    have hothers := ih (n := n) (fun x hx => hr x (List.mem_cons_of_mem _ hx)) (by simpa using hlen)
    simp [row, hoperand, hothers]

theorem length_le_rowTokens (r : List (BinaryOp × Phrase)) : r.length ≤ (rowTokens r).length := by
  induction r with
  | nil => exact Nat.le_refl _
  | cons x r ih =>
    rw [rowTokens_cons]
    simp only [List.length_cons, List.length_append]
    omega

/-- No operand of a row nests deeper than the phrase. -/
theorem nesting_spine_le (p : Phrase) :
    p.spine.1.nesting ≤ p.nesting ∧ ∀ x ∈ p.spine.2, x.2.nesting ≤ p.nesting := by
  fun_induction spine p with
  | case1 op l r ihl ihr =>
    have hl : l.nesting ≤ (binary op l r).nesting := by rw [nesting]; exact Nat.le_max_left _ _
    have hr : r.nesting ≤ (binary op l r).nesting := by rw [nesting]; exact Nat.le_max_right _ _
    refine ⟨Nat.le_trans ihl.1 hl, fun x hx => ?_⟩
    rcases List.mem_append.mp hx with hx | hx
    · exact Nat.le_trans (ihl.2 x hx) hl
    · rcases List.mem_cons.mp hx with rfl | hx
      · exact Nat.le_trans ihr.1 hr
      · exact Nat.le_trans (ihr.2 x hx) hr
  | case2 => simp

theorem sound_chain (h : Sound inner tokens Fits) : Sound (chain inner) tokens Fits := by
  intro ts p rest hread
  obtain ⟨⟨first, us⟩, hfirst, hmore⟩ := Option.bind_eq_some_iff.mp hread
  obtain ⟨⟨r, us'⟩, hrow, heq⟩ := Option.bind_eq_some_iff.mp hmore
  cases heq
  obtain ⟨hoperand, rfl⟩ := sound_operand h _ _ _ hfirst
  obtain ⟨hothers, rfl⟩ := sound_row h _ _ _ hrow
  have hassembles : Assembles 1 first r (assemble 6 first r) :=
    IsRow.assembles ⟨hoperand, hothers, fun x _ => one_le_tier x.1⟩ (Nat.le_refl 6)
  exact ⟨hassembles.fits, by rw [hassembles.tokens, List.append_assoc]⟩

theorem complete_chain (h : CompleteBelow inner m) : CompleteBelow (chain inner) (m + 1) := by
  rintro p rest ⟨hfits, hnesting⟩ hrest
  have hle : p.nesting ≤ m := Nat.le_of_lt_succ hnesting
  obtain ⟨hfirst, hothers, -⟩ := hfits.isRow
  obtain ⟨hfirstLe, hothersLe⟩ := nesting_spine_le p
  have hoperand := complete_operand h p.spine.1 (rowTokens p.spine.2 ++ rest)
    ⟨hfirst, Nat.le_trans hfirstLe hle⟩ (stops_isLink_rowTokens p.spine.2 hrest)
  have hrow := complete_row h p.spine.2 rest (n := (rowTokens p.spine.2 ++ rest).length)
    ⟨fun x hx => ⟨hothers x hx, Nat.le_trans (hothersLe x hx) hle⟩, by
      rw [List.length_append]
      exact Nat.le_add_right_of_le (length_le_rowTokens _)⟩ hrest
  rw [← tokens_spine p, List.append_assoc, chain, hoperand]
  simp only [Option.bind_eq_bind, Option.bind_some, hrow,
    assemble_spine hfits (Nat.le_refl 6) (one_le_phrase_tier p)]

/-- **What is found in tokens is written there**, and fits. -/
theorem sound_phrase? : Sound (phrase? n) tokens Fits := by
  induction n with
  | zero => exact sound_chain fun ts p rest hread => by simp at hread
  | succ n ih => exact sound_chain ih

/-- **A phrase that fits is found in its tokens**, if it nests no deeper than the reader may go and
what follows cannot go on with it. -/
theorem complete_phrase? : CompleteBelow (phrase? n) (n + 1) := by
  induction n with
  | zero => exact complete_chain fun p rest hp _ => absurd hp.2 (Nat.not_lt_zero _)
  | succ n ih => exact complete_chain ih

end Phrase

end Resumable.Expr
