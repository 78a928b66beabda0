import QVault.Services.Execution
import QVault.Python.Loads
import QVault.Lib.Excerpts
import QVault.Lib.OrderedDict
import Mathlib.Data.List.SplitOn
import Mathlib.Data.Finset.Dedup

/-!
# A decision's discussion

The handles that name a decision's readers, what a comment's mentions resolve to when it is posted,
and how a stored comment is drawn. Who may post, and who is told, is decided elsewhere.
-/

namespace QVault.Services.Discussion
open Python

/-! ## Characters -/

def isAscii (c : CodePoint) : Bool := c.val < 128

def isLowerLetter (c : CodePoint) : Bool := 97 ≤ c.val && c.val ≤ 122
def isUpperLetter (c : CodePoint) : Bool := 65 ≤ c.val && c.val ≤ 90

def asciiLower (c : CodePoint) : CodePoint := if isUpperLetter c then Fin.ofNat _ (c.val + 32) else c

/-- What `unicodedata`, `str.lower` and `re` say of characters, and what they are known to say of ASCII. -/
structure Unicode where
  nfkd : Text → Text
  combining : CodePoint → Bool
  lower : Text → Text
  -- `\w`
  wordChar : CodePoint → Bool
  -- a character of the categories Cc, Cf and Cs
  hidden : CodePoint → Bool
  nfkd_ascii : ∀ t, (∀ c ∈ t, isAscii c = true) → nfkd t = t
  combining_ascii : ∀ c, isAscii c = true → combining c = false
  lower_ascii : ∀ t, (∀ c ∈ t, isAscii c = true) → lower t = t.map asciiLower
  wordChar_ascii : ∀ c, isAscii c = true →
    wordChar c = (isLowerLetter c || isUpperLetter c || Json.isDigit c || c == codePoint '_')

-- `[a-z0-9._-]`, which `_HANDLE` negates
def isHandle (c : CodePoint) : Bool :=
  isLowerLetter c || Json.isDigit c || c == codePoint '.' || c == codePoint '_' || c == codePoint '-'

def marks : Text := text "._-"

-- `str.rstrip` of the characters given
def rstrip (chars t : Text) : Text := (t.reverse.dropWhile fun c => chars.contains c).reverse

-- `str.split` at white space
def splitWords (t : Text) : List Text := (t.splitOnP isWhitespace).filter fun w => !w.isEmpty

variable (u : Unicode)

/-! ## Handles -/

-- `_PLAIN`
def plain (c : CodePoint) : Text :=
  if c.val = 0x142 then "l" else if c.val = 0xF8 then "o" else if c.val = 0x111 then "d"
  else if c.val = 0x127 then "h" else if c.val = 0x131 then "i" else if c.val = 0x167 then "t"
  else if c.val = 0xDF then "ss" else if c.val = 0xE6 then "ae" else if c.val = 0x153 then "oe"
  else if c.val = 0xFE then "th" else if c.val = 0xF0 then "d" else [c]

def fold (t : Text) : Text :=
  let decomposed := u.nfkd (strip t)
  (u.lower (decomposed.filter fun c => !u.combining c)).flatMap plain

def apostrophe (c : CodePoint) : Bool := c == codePoint '\'' || c.val == 0x2019

def nameWords (name : Text) : List Text :=
  (splitWords ((fold u name).filter fun c => !apostrophe c)).filter fun w => !w.isEmpty

def maxHandle : Nat := 64

def nameHandles (name : Text) : List Text :=
  match nameWords u name with
  | [] => []
  | first :: rest =>
    if first.any (!isHandle ·) || (first.take 1).any (marks.contains ·) then []
    else
      let whole := rstrip "." (((text ".").intercalate (first :: rest)).take maxHandle)
      if whole = first || (first :: rest).any (fun word => word.any (!isHandle ·)) then [first] else [first, whole]

structure User where
  id : Int
  displayName : Option Text
  email : Text

/-- The readers of a decision: rows of the users' table, so each id stands once and is a 64-bit integer. -/
structure Readers where
  users : List User
  distinct : (users.map (·.id)).Nodup
  small : ∀ r ∈ users, r.id.natAbs < 2 ^ 64

structure Person where
  userId : Int
  name : Text
  handles : List Text

-- `mine`, without repetition and in order
def handlesOf (r : User) : List Text := (nameHandles u (r.displayName.getD [])).eraseDups

def owners (users : List User) (handle : Text) : Finset Int :=
  ((users.filter fun r => (handlesOf u r).contains handle).map (·.id)).toFinset

def shownName (r : User) : Text :=
  match r.displayName with
  | some (c :: rest) => c :: rest
  | _ => r.email

def directory (users : List User) (exclude : Option Int) : List Person :=
  users.filterMap fun r =>
    if some r.id = exclude then none
    else
      let handles := (handlesOf u r).filter fun handle => owners u users handle = {r.id}
      if handles.isEmpty then none else some ⟨r.id, shownName r, handles⟩

/-! ## Mentions -/

-- `[\w.-]`
def inHandle (c : CodePoint) : Bool := u.wordChar c || c == codePoint '.' || c == codePoint '-'

-- `[^\W_]`
def startsHandle (c : CodePoint) : Bool := u.wordChar c && c != codePoint '_'

-- `(?<![\w@.])`
def mayPrecede (before : Option CodePoint) : Bool :=
  before.all fun c => !(u.wordChar c || c == codePoint '@' || c == codePoint '.')

-- `MENTION`, with its group
def mention : Excerpts.Pattern CodePoint Text := fun before t =>
  match t with
  | sign :: first :: rest =>
    if sign = codePoint '@' ∧ mayPrecede u before ∧ startsHandle u first then
      let typed := first :: (rest.takeWhile (inHandle u)).take 63
      some (typed.length, typed)
    else none
  | _ => none

def mentionsIn (body : Text) : List (Excerpts.Hit Text) := Excerpts.hits (mention u) body

def handleOf (typed : Text) : Text := fold u (rstrip marks typed)

abbrev Dict := OrderedDict Text Int

def table (people : List Person) : Dict :=
  .ofPairs (people.flatMap fun p => p.handles.map (·, p.userId))

def resolve (body : Text) (people : List Person) : Dict :=
  (mentionsIn u body).foldl (fun found hit =>
    let handle := handleOf u hit.value
    match (table people).get handle with
    | some id => found.put handle id
    | none => found) .empty

/-! ## Comments -/

structure Comment where
  id : Int
  proposalId : Int
  authorId : Int
  body : Text
  mentions : Option Text
  createdAt : Int
  deletedAt : Option Int

structure CommentError where
  code : Text
  message : Text

def maxBody : Nat := 2000
def maxMentions : Nat := 10
def rateLimit : Nat := 5
-- one minute, in microseconds
def rateWindow : Int := 60 * 1000000
def maxPerDecision : Nat := 500
def maxPerAuthor : Nat := 100

def lineBreaks : Text → Text
  | [] => []
  | c :: rest =>
    if c.val = 13 then
      match rest with
      | [] => [codePoint '\n']
      | d :: more => if d.val = 10 then codePoint '\n' :: lineBreaks more else codePoint '\n' :: lineBreaks (d :: more)
    else c :: lineBreaks rest

-- `re.sub(r"\n{3,}", "\n\n", text)`, where `run` counts the line breaks that stand just before
def fewBreaks : (run : Nat) → Text → Text
  | _, [] => []
  | run, c :: rest =>
    if c.val = 10 then if run < 2 then c :: fewBreaks (run + 1) rest else fewBreaks run rest
    else c :: fewBreaks 0 rest

def clean (body : Option Text) : Text :=
  let shown := (lineBreaks (body.getD [])).filter fun c => c.val = 10 || c.val = 9 || !u.hidden c
  strip (fewBreaks 0 shown)

-- `json.dumps(mentions, sort_keys=True) if mentions else None`
def storedMentions (mentions : Dict) : Option Text :=
  if mentions.entries.isEmpty then none
  else some (Json.dumps .standard (.dict (mentions.entries.map fun e => (e.1, .int e.2))))

-- `reason` is what `why_cannot_post` says, and `id` the key the row is given.
def post (comments : List Comment) (readers : Readers) (reason : Option Text) (id proposal author : Int)
    (body : Option Text) (now : Int) : Except CommentError Comment :=
  match reason with
  | some reason => .error ⟨"not_allowed", reason⟩
  | none =>
    let shown := clean u body
    if shown.isEmpty then .error ⟨"empty", "Write a comment first."⟩
    else if maxBody < shown.length then
      .error ⟨"too_long", text "Keep a comment to 2,000 characters. This one has " ++
        groupedText shown.length ++ text "."⟩
    else if rateLimit ≤ comments.countP fun c => c.authorId = author && now - rateWindow < c.createdAt then
      .error ⟨"rate_limited", "You’ve posted several comments in the last minute. Wait a minute."⟩
    else if maxPerAuthor ≤ comments.countP fun c => c.proposalId = proposal && c.authorId = author then
      .error ⟨"author_full",
        "You’ve posted 100 comments on this decision, which is as many as one person can."⟩
    else if maxPerDecision ≤ comments.countP fun c => c.proposalId = proposal && c.deletedAt.isNone then
      .error ⟨"thread_full", "This discussion has reached 500 comments, so it takes no more."⟩
    else
      let mentions := resolve u shown (directory u readers.users (some author))
      if maxMentions < (mentions.entries.map Prod.snd).toFinset.card then
        .error ⟨"too_many_mentions", "Mention at most 10 people in one comment."⟩
      else .ok ⟨id, proposal, author, shown, storedMentions mentions, now, none⟩

def delete (comment : Comment) (user now : Int) : Except CommentError Comment :=
  if comment.authorId ≠ user then .error ⟨"not_yours", "You can delete only your own comments."⟩
  else if comment.deletedAt.isSome then .ok comment
  else .ok { comment with body := [], mentions := none, deletedAt := some now }

/-! ## How a comment is drawn -/

structure Segment where
  text : Text
  -- whom a mention names, and by which name
  mention : Option (Int × Option Text)

-- `json.loads(comment.mentions)` when it is a dict, else nothing
def readMentions (mentions : Option Text) : List (Text × Json) :=
  match mentions with
  | none => []
  | some t =>
    if t.isEmpty then []
    else match Json.loads t with
      | .ok (.dict fields) => fields
      | _ => []

def segmentsFrom (names : Int → Option Text) (body : Text) (mentions : List (Text × Json)) :
    (last : Nat) → List (Excerpts.Hit Text) → List Segment
  | last, [] => if last < body.length then [⟨body.drop last, none⟩] else []
  | last, hit :: rest =>
    let handle := rstrip marks hit.value
    match (Json.get mentions (fold u handle)).int? with
    | none => segmentsFrom names body mentions last rest
    | some userId =>
      let stop := hit.start + 1 + handle.length
      (if last < hit.start then [⟨Excerpts.slice body last hit.start, none⟩] else []) ++
        ⟨Excerpts.slice body hit.start stop, some (userId, names userId)⟩ ::
          segmentsFrom names body mentions stop rest

def segments (comment : Comment) (names : Int → Option Text) : List Segment :=
  if comment.deletedAt.isSome then []
  else segmentsFrom u names comment.body (readMentions comment.mentions) 0 (mentionsIn u comment.body)

/-! ## A discussion over time -/

-- A stored comment, with the people a comment could mention when it was posted
structure Entry where
  row : Comment
  people : List Person

def deleteIn (log : List Entry) (id user now : Int) : List Entry :=
  log.map fun e =>
    if e.row.id = id then
      match delete e.row user now with
      | .ok row => { e with row }
      | .error _ => e
    else e

-- Comments are posted and deleted, in any order, by anyone and among any readers.
inductive Discussed : List Entry → Prop
  | start : Discussed []
  | posted {log : List Entry} {readers : Readers} {reason : Option Text} {id proposal author : Int} {body : Option Text}
    {now : Int} {row : Comment} (before : Discussed log) (fresh : ∀ e ∈ log, e.row.id ≠ id)
    (made : post u (log.map (·.row)) readers reason id proposal author body now = .ok row) :
    Discussed (log ++ [⟨row, directory u readers.users (some author)⟩])
  | deleted {log : List Entry} (before : Discussed log) (id user now : Int) : Discussed (deleteIn log id user now)

end QVault.Services.Discussion
