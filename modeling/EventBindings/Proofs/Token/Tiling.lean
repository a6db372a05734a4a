import EventBindings.Proofs.Text.Bytes
import EventBindings.Proofs.Token.Spacing

namespace EventBindings

open Text

/-!
What the tokens of a text are, whatever reads them: spellings that stand apart
in its bytes with nothing but spaces between them, and no name shorter than it
could be. A text has at most one such list of tokens, and reading gives it.
-/

namespace Text

theorem endsName_dropWhile (text : List Char) : EndsName (text.dropWhile isIdentifierPart) := by
  intro c first
  have fails := List.head?_dropWhile_not isIdentifierPart text
  simpa [first] using fails

theorem endsName_of_takeIdentifier {text name rest : List Char}
    (taken : takeIdentifier text = (name, rest)) (nonempty : name ≠ []) : EndsName rest := by
  cases text with
  | nil =>
      cases taken
      exact absurd rfl nonempty
  | cons c text =>
      rw [takeIdentifier] at taken
      split at taken
      · cases taken
        exact endsName_dropWhile text
      · cases taken
        exact absurd rfl nonempty

end Text

namespace Token

variable {offset : Nat} {text rest : List Char} {token : Token}

theorem endsBefore_of_readState (read : readState offset text = .ok (token, rest)) :
    token.EndsBefore rest := by
  intro _
  simp only [readState] at read
  split at read
  · rename_i outcome found
    cases read
    have nonempty : (takeIdentifier text).1 ≠ [] := by
      intro empty
      rw [empty] at found
      cases found
    exact endsName_of_takeIdentifier rfl nonempty
  · contradiction

theorem endsBefore_of_readModifier (read : readModifier offset text = .ok (token, rest)) :
    token.EndsBefore rest := by
  intro _
  simp only [readModifier] at read
  split at read
  · contradiction
  · rename_i name after nonempty taken
    cases read
    exact endsName_of_takeIdentifier taken (by intro empty; exact nonempty empty)

theorem endsBefore_of_readCall (read : readCall offset text = .ok (token, rest)) :
    token.EndsBefore rest := by
  intro endsInName
  simp only [readCall] at read
  split at read
  · split at read
    · contradiction
    · cases read
      cases endsInName
    · contradiction
  · contradiction

/-- Names are read as far as they go. -/
theorem endsBefore_of_readToken {c : Char} (read : readToken offset c text = .ok (token, rest)) :
    token.EndsBefore rest := by
  unfold readToken at read
  split at read
  case h_8 => exact endsBefore_of_readState read
  case h_9 => exact endsBefore_of_readModifier read
  case h_10 => exact endsBefore_of_readCall read
  case h_11 =>
    split at read
    · cases read
      exact fun _ => endsName_dropWhile _
    · contradiction
  all_goals
    cases read
    intro endsInName
    cases endsInName

theorem width_eq_length (token : Token) : token.width = (bytes token.spelling.toList).length :=
  (length_bytes _).symm

theorem Named.width_pos {token : Token} (named : token.Named) : 0 < token.width := by
  obtain ⟨c, rest, letters⟩ := List.exists_cons_of_ne_nil (spelling_ne_nil named)
  rw [width, letters, byteLength_cons]
  exact Nat.lt_of_lt_of_le c.utf8Size_pos (Nat.le_add_right _ _)

end Token

/-- The text, whose first character stands at the offset, consists of the tokens
and of spaces. -/
inductive Tiled : Nat → List Char → List PlacedToken → Prop
  | nil (offset : Nat) : Tiled offset [] []
  | space {offset : Nat} {text : List Char} {placed : List PlacedToken} :
      Tiled (offset + 1) text placed → Tiled offset (' ' :: text) placed
  | token {offset : Nat} {token : Token} {rest : List Char} {placed : List PlacedToken} :
      token.Named → token.EndsBefore rest → Tiled (offset + token.width) rest placed →
      Tiled offset (token.spelling.toList ++ rest) (⟨token, offset⟩ :: placed)

theorem tokenizeFrom_eq_ok_iff {offset : Nat} {text : List Char} {placed : List PlacedToken} :
    tokenizeFrom offset text = .ok placed ↔ Tiled offset text placed := by
  constructor
  · intro tokenized
    fun_induction tokenizeFrom offset text generalizing placed with
    | case1 offset =>
        cases tokenized
        exact .nil offset
    | case2 offset text ih => exact .space (ih tokenized)
    | case3 => cases tokenized
    | case4 offset c text notSpace token rest read ih =>
        obtain ⟨others, behind, same⟩ := bind_eq_ok_iff.mp tokenized
        cases same
        rw [Token.readToken_spelling read]
        exact .token (Token.named_of_readToken read) (Token.endsBefore_of_readToken read) (ih behind)
  · intro tiled
    induction tiled with
    | nil => simp [tokenizeFrom]
    | space _ ih => rwa [tokenizeFrom, if_pos rfl]
    | token named ends _ ih =>
        obtain ⟨c, text, letters, notSpace, read⟩ := Token.readToken_of_spelling named ends
        rw [letters, tokenizeFrom_cons notSpace (read _), ih]
        rfl

namespace PlacedToken

/-- The place behind the token. -/
def stop (placed : PlacedToken) : Nat :=
  placed.offset + placed.token.width

/-- The byte at the place belongs to the token. -/
def Covers (placed : PlacedToken) (place : Nat) : Prop :=
  placed.offset ≤ place ∧ place < placed.stop

end PlacedToken

/-- The tokens cover the bytes from the start on, apart from spaces: each is
spelled where it stands, none reaches into the next, and every name goes on as
far as it can. -/
structure TilesFrom (start : Nat) (text : List UInt8) (placed : List PlacedToken) : Prop where
  within : ∀ token ∈ placed, start ≤ token.offset
  spelled : ∀ token ∈ placed, bytes token.token.spelling.toList <+: text.drop token.offset
  ordered : placed.Pairwise fun first second =>
    first.offset < second.offset ∧ first.stop ≤ second.offset
  spaces : ∀ place byte, start ≤ place → text[place]? = some byte →
    (∃ token ∈ placed, token.Covers place) ∨ byte = 0x20
  named : ∀ token ∈ placed, token.token.Named
  maximal : ∀ token ∈ placed, token.token.endsInName = true →
    ∀ byte, text[token.stop]? = some byte → isIdentifierPart (Char.ofUInt8 byte) = false

def MaximalTiling (text : String) (placed : List PlacedToken) : Prop :=
  TilesFrom 0 text.toByteArray.data.toList placed

section Bytes

variable {start : Nat} {all : List UInt8} {text rest : List Char} {token : Token}

theorem drop_add_width (whole : all.drop start = bytes (token.spelling.toList ++ rest)) :
    all.drop (start + token.width) = bytes rest := by
  rw [← List.drop_drop, whole, bytes_append, token.width_eq_length, List.drop_left]

theorem endsBefore_iff (behind : all.drop start = bytes rest) : token.EndsBefore rest ↔
    (token.endsInName = true →
      ∀ byte, all[start]? = some byte → isIdentifierPart (Char.ofUInt8 byte) = false) := by
  have first : (bytes rest).head? = all[start]? := by rw [← behind, List.head?_drop]
  rw [Token.EndsBefore, endsName_iff_bytes, first]

end Bytes

namespace TilesFrom

variable {start : Nat} {all : List UInt8} {placed : List PlacedToken}

theorem nil (ended : all.drop start = []) : TilesFrom start all [] where
  within := nofun
  spelled := nofun
  ordered := .nil
  spaces place byte reached found := by
    have beyond : all.length ≤ start := List.drop_eq_nil_iff.mp ended
    rw [List.getElem?_eq_none (Nat.le_trans beyond reached)] at found
    cases found
  named := nofun
  maximal := nofun

theorem space (tiles : TilesFrom (start + 1) all placed) (blank : all[start]? = some 0x20) :
    TilesFrom start all placed where
  within token member := Nat.le_of_succ_le (tiles.within token member)
  spelled := tiles.spelled
  ordered := tiles.ordered
  spaces place byte reached found := by
    rcases Nat.eq_or_lt_of_le reached with rfl | later
    · rw [blank] at found
      cases found
      exact .inr rfl
    · exact tiles.spaces place byte later found
  named := tiles.named
  maximal := tiles.maximal

theorem cons {token : Token} {rest : List Char} (named : token.Named)
    (ends : token.EndsBefore rest) (whole : all.drop start = bytes (token.spelling.toList ++ rest))
    (tiles : TilesFrom (start + token.width) all placed) :
    TilesFrom start all (⟨token, start⟩ :: placed) where
  within := by
    refine List.forall_mem_cons.mpr ⟨Nat.le_refl start, fun other member => ?_⟩
    exact Nat.le_trans (Nat.le_add_right start token.width) (tiles.within other member)
  spelled := by
    refine List.forall_mem_cons.mpr ⟨?_, tiles.spelled⟩
    rw [whole, bytes_append]
    exact List.prefix_append _ _
  ordered := by
    refine List.pairwise_cons.mpr ⟨fun other member => ?_, tiles.ordered⟩
    have behind := tiles.within other member
    have wide := named.width_pos
    refine ⟨?_, behind⟩
    dsimp only
    omega
  spaces place byte reached found := by
    by_cases inside : place < start + token.width
    · exact .inl ⟨_, List.mem_cons_self, reached, inside⟩
    · rcases tiles.spaces place byte (Nat.not_lt.mp inside) found with ⟨other, member, covers⟩ | blank
      · exact .inl ⟨other, List.mem_cons_of_mem _ member, covers⟩
      · exact .inr blank
  named := List.forall_mem_cons.mpr ⟨named, tiles.named⟩
  maximal := List.forall_mem_cons.mpr ⟨(endsBefore_iff (drop_add_width whole)).mp ends, tiles.maximal⟩

theorem tail {first : PlacedToken} (tiles : TilesFrom start all (first :: placed)) :
    TilesFrom first.stop all placed where
  within other member := ((List.pairwise_cons.mp tiles.ordered).1 other member).2
  spelled := (List.forall_mem_cons.mp tiles.spelled).2
  ordered := (List.pairwise_cons.mp tiles.ordered).2
  spaces place byte reached found := by
    have begins : start ≤ first.offset := tiles.within first List.mem_cons_self
    have later : start ≤ place :=
      Nat.le_trans begins (Nat.le_trans (Nat.le_add_right _ _) reached)
    rcases tiles.spaces place byte later found with ⟨other, member, covers⟩ | blank
    · rcases List.mem_cons.mp member with rfl | inRest
      · exact absurd covers.2 (Nat.not_lt.mpr reached)
      · exact .inl ⟨other, inRest, covers⟩
    · exact .inr blank
  named := (List.forall_mem_cons.mp tiles.named).2
  maximal := (List.forall_mem_cons.mp tiles.maximal).2

section Skip

variable (tiles : TilesFrom start all placed) (later : ∀ token ∈ placed, start ≠ token.offset)
include tiles later

theorem skip : TilesFrom (start + 1) all placed where
  within token member := Nat.lt_of_le_of_ne (tiles.within token member) (later token member)
  spelled := tiles.spelled
  ordered := tiles.ordered
  spaces place byte reached := tiles.spaces place byte (Nat.le_of_succ_le reached)
  named := tiles.named
  maximal := tiles.maximal

/-- Where no token begins there is a space. -/
theorem eq_space {byte : UInt8} (found : all[start]? = some byte) : byte = 0x20 := by
  rcases tiles.spaces start byte (Nat.le_refl start) found with ⟨token, member, begins, _⟩ | blank
  · exact absurd (Nat.le_antisymm (tiles.within token member) begins) (later token member)
  · exact blank

end Skip

theorem placed_of_ended (tiles : TilesFrom start all placed) (ended : all.drop start = []) :
    placed = [] := by
  cases placed with
  | nil => rfl
  | cons first placed =>
      have begins := tiles.within first List.mem_cons_self
      have spelled := tiles.spelled first List.mem_cons_self
      have beyond : all.drop first.offset = [] :=
        List.drop_eq_nil_iff.mpr (Nat.le_trans (List.drop_eq_nil_iff.mp ended) begins)
      rw [beyond, List.prefix_nil] at spelled
      have wide := (tiles.named first List.mem_cons_self).width_pos
      rw [Token.width_eq_length, spelled] at wide
      exact absurd wide (Nat.lt_irrefl 0)

end TilesFrom

theorem Tiled.tilesFrom {start : Nat} {text : List Char} {placed : List PlacedToken}
    (tiled : Tiled start text placed) {all : List UInt8} (whole : all.drop start = bytes text) :
    TilesFrom start all placed := by
  induction tiled with
  | nil => exact .nil whole
  | @space offset text placed _ ih =>
      have blank : all[offset]? = some 0x20 := by rw [← List.head?_drop, whole, bytes_space]; rfl
      have behind : all.drop (offset + 1) = bytes text := by
        rw [← List.drop_drop, whole, bytes_space]
        rfl
      exact .space (ih behind) blank
  | token named ends _ ih => exact .cons named ends whole (ih (drop_add_width whole))

namespace TilesFrom

variable {start : Nat} {all : List UInt8} {placed : List PlacedToken} {text : List Char}

/-- The text begins with the token that stands at its start. -/
theorem exists_token {token : Token} (tiles : TilesFrom start all (⟨token, start⟩ :: placed))
    (whole : all.drop start = bytes text) :
    ∃ rest, text = token.spelling.toList ++ rest ∧ token.EndsBefore rest ∧
      all.drop (start + token.width) = bytes rest := by
  obtain ⟨behind, same⟩ := tiles.spelled _ List.mem_cons_self
  rw [whole] at same
  obtain ⟨rest, rfl, -⟩ := exists_of_bytes_eq_append same.symm
  have reached := drop_add_width whole
  exact ⟨rest, rfl, (endsBefore_iff reached).mpr (tiles.maximal _ List.mem_cons_self), reached⟩

/-- The text begins with a space if no token stands at its start. -/
theorem exists_space (tiles : TilesFrom start all placed)
    (later : ∀ token ∈ placed, start ≠ token.offset) (whole : all.drop start = bytes text)
    (nonempty : text ≠ []) :
    ∃ rest, text = ' ' :: rest ∧ all.drop (start + 1) = bytes rest := by
  have more : bytes text ≠ bytes [] := fun empty => nonempty (bytes_injective empty)
  obtain ⟨byte, behind, same⟩ := List.exists_cons_of_ne_nil more
  have found : all[start]? = some byte := by rw [← List.head?_drop, whole, same]; rfl
  have blank : byte = 0x20 := tiles.eq_space later found
  have begins : bytes text = bytes [' '] ++ behind := by
    rw [same, blank]
    rfl
  obtain ⟨rest, split, -⟩ := exists_of_bytes_eq_append begins
  refine ⟨rest, split, ?_⟩
  rw [← List.drop_drop, whole, split, List.singleton_append, bytes_space]
  rfl

theorem ne_offset {first : PlacedToken} (tiles : TilesFrom start all (first :: placed))
    (later : start ≠ first.offset) : ∀ token ∈ first :: placed, start ≠ token.offset := by
  refine List.forall_mem_cons.mpr ⟨later, fun other member => ?_⟩
  have begins := tiles.within first List.mem_cons_self
  have behind := (List.pairwise_cons.mp tiles.ordered).1 other member
  exact Nat.ne_of_lt (Nat.lt_of_le_of_lt begins behind.1)

end TilesFrom

theorem TilesFrom.tiled {start : Nat} {all : List UInt8} {placed : List PlacedToken}
    {text : List Char} (tiles : TilesFrom start all placed) (whole : all.drop start = bytes text) :
    Tiled start text placed := by
  by_cases ended : text = []
  · subst ended
    rw [tiles.placed_of_ended whole]
    exact .nil start
  · by_cases begins : ∃ first others, placed = first :: others ∧ start = first.offset
    · obtain ⟨⟨token, _⟩, others, rfl, rfl⟩ := begins
      obtain ⟨rest, rfl, ends, behind⟩ := tiles.exists_token whole
      have named : token.Named := tiles.named _ List.mem_cons_self
      have shorter : rest.length < (token.spelling.toList ++ rest).length := by
        have written := List.length_pos_iff.mpr (Token.spelling_ne_nil named)
        rw [List.length_append]
        omega
      exact .token named ends (tiles.tail.tiled behind)
    · have later : ∀ token ∈ placed, start ≠ token.offset := by
        cases placed with
        | nil => exact nofun
        | cons first others =>
            exact tiles.ne_offset fun same => begins ⟨first, others, rfl, same⟩
      obtain ⟨rest, rfl, behind⟩ := tiles.exists_space later whole ended
      exact .space ((tiles.skip later).tiled behind)
termination_by text.length

theorem tokenize_eq_ok_iff {text : String} {placed : List PlacedToken} :
    tokenize text = .ok placed ↔ MaximalTiling text placed := by
  have whole : text.toByteArray.data.toList.drop 0 = bytes text.toList := toList_toByteArray text
  rw [tokenize, tokenizeFrom_eq_ok_iff]
  exact ⟨fun tiled => tiled.tilesFrom whole, fun tiles => tiles.tiled whole⟩

theorem Tiled.exists_split {start : Nat} {text : List Char} {placed : List PlacedToken}
    (tiled : Tiled start text placed) : ∀ token ∈ placed, ∃ before behind,
      text = before ++ token.token.spelling.toList ++ behind ∧
        token.offset = start + byteLength before := by
  induction tiled with
  | nil => exact nofun
  | space _ ih =>
      intro token member
      obtain ⟨before, behind, rfl, place⟩ := ih token member
      refine ⟨' ' :: before, behind, rfl, ?_⟩
      rw [place, byteLength_space, Nat.add_assoc]
  | @token offset first rest placed _ _ _ ih =>
      refine List.forall_mem_cons.mpr ⟨⟨[], rest, by simp, rfl⟩, fun token member => ?_⟩
      obtain ⟨before, behind, rfl, place⟩ := ih token member
      refine ⟨first.spelling.toList ++ before, behind, by simp, ?_⟩
      rw [place, byteLength_append, Token.width, Nat.add_assoc]

/-- A place in the text is the start of a character or the end of the text. -/
theorem isValid_byteLength {text : String} {before behind : List Char}
    (split : text.toList = before ++ behind) :
    String.Pos.Raw.IsValid text ⟨byteLength before⟩ := by
  refine String.Pos.Raw.isValid_iff_exists_append.mpr
    ⟨String.ofList before, String.ofList behind, ?_, ?_⟩
  · rw [← String.ofList_append, ← split, String.ofList_toList]
  · have size : (String.ofList before).rawEndPos.byteIdx = byteLength before := by
      rw [String.byteIdx_rawEndPos, utf8ByteSize_eq_byteLength, String.toList_ofList]
    rw [String.Pos.Raw.ext_iff, size]

/-- Reading gives the tokens that tile the text, and fails if there are none. No
text has two tilings, and tokens begin and end at the boundaries of characters. -/
theorem tokenize_exact (text : String) :
    (∀ placed, tokenize text = .ok placed ↔ MaximalTiling text placed) ∧
      (∀ one other, MaximalTiling text one → MaximalTiling text other → one = other) ∧
      ∀ placed, MaximalTiling text placed → ∀ token ∈ placed,
        String.Pos.Raw.IsValid text ⟨token.offset⟩ ∧ String.Pos.Raw.IsValid text ⟨token.stop⟩ := by
  refine ⟨fun placed => tokenize_eq_ok_iff, fun one other first second => ?_,
    fun placed tiling token member => ?_⟩
  · have same := (tokenize_eq_ok_iff.mpr first).symm.trans (tokenize_eq_ok_iff.mpr second)
    exact Except.ok.inj same
  · have tiled := tokenizeFrom_eq_ok_iff.mp (tokenize_eq_ok_iff.mpr tiling)
    obtain ⟨before, behind, split, place⟩ := tiled.exists_split token member
    rw [Nat.zero_add] at place
    have stop : token.stop = byteLength (before ++ token.token.spelling.toList) := by
      rw [PlacedToken.stop, place, byteLength_append, Token.width]
    rw [place, stop]
    exact ⟨isValid_byteLength (by rw [split, List.append_assoc]), isValid_byteLength split⟩

/-- A name takes the hyphen of an arrow right behind it. -/
example : tokenize "saved->row" = .error (.unexpectedCharacter '>' 6) := by
  decide +kernel

/-- A text that does not lengthen a name leaves the tokens before it as they are. -/
theorem Tiled.append {offset : Nat} {text tail : List Char} {before behind : List PlacedToken}
    (tiled : Tiled offset text before) (ends : EndsName tail)
    (tiledTail : Tiled (offset + byteLength text) tail behind) :
    Tiled offset (text ++ tail) (before ++ behind) := by
  induction tiled with
  | nil => exact tiledTail
  | @space offset text _ _ ih =>
      rw [byteLength_space, ← Nat.add_assoc] at tiledTail
      exact .space (ih tiledTail)
  | @token offset token rest placed named endsBefore _ ih =>
      have endsBoth : token.EndsBefore (rest ++ tail) := by
        intro endsInName
        cases rest with
        | nil => exact ends
        | cons c rest => exact endsBefore endsInName
      rw [byteLength_append, ← Token.width, ← Nat.add_assoc] at tiledTail
      rw [List.append_assoc]
      exact .token named endsBoth (ih tiledTail)

namespace HasTokens

variable {text tail : List Char} {tokens behind : List Token}

theorem append (hasTokens : HasTokens text tokens) (ends : EndsName tail)
    (inTail : HasTokens tail behind) : HasTokens (text ++ tail) (tokens ++ behind) := by
  obtain ⟨placed, tokenized, rfl⟩ := hasTokens
  obtain ⟨placedTail, tokenizedTail, rfl⟩ := (iff_tokenizeFrom (0 + byteLength text) tail).mp inTail
  have tiled := (tokenizeFrom_eq_ok_iff.mp tokenized).append ends
    (tokenizeFrom_eq_ok_iff.mp tokenizedTail)
  exact ⟨placed ++ placedTail, tokenizeFrom_eq_ok_iff.mpr tiled, by simp⟩

theorem of_spelled (named : ∀ token ∈ tokens, token.Named) (apart : Apart tokens) :
    HasTokens (spelled tokens) tokens :=
  ⟨_, tokenizeFrom_spelled named apart 0, map_token_placeFrom 0 tokens⟩

theorem of_named (token : Token) (named : token.Named) :
    HasTokens token.spelling.toList [token] := by
  have alone : spelled [token] = token.spelling.toList := List.append_nil _
  exact alone ▸ of_spelled (List.forall_mem_singleton.mpr named) trivial

theorem spelling_infix (hasTokens : HasTokens text tokens) {token : Token} (member : token ∈ tokens) :
    token.spelling.toList <:+: text := by
  obtain ⟨placed, tokenized, rfl⟩ := hasTokens
  obtain ⟨place, inPlaced, rfl⟩ := List.mem_map.mp member
  obtain ⟨before, behind, split, _⟩ :=
    (tokenizeFrom_eq_ok_iff.mp tokenized).exists_split place inPlaced
  exact ⟨before, behind, split.symm⟩

end HasTokens

end EventBindings
