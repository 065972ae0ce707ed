import UnemployCoin.AssetTypes
import UnemployCoin.Lib.Regex
/-!
# Asset names

The regular expressions of `assets/assets.cpp` and the functions that classify a name with
them.  `regexMatch` matches the whole name, so the anchors `^` and `$` of the source's
expressions are dropped.  The texts that `IsTypeCheckNameValid` writes for the RPC layer are not
part of the model: no consensus rule reads them.
-/

namespace UnemployCoin

open Regex

/-! ## Character classes -/

def isUpper (c : UInt8) : Bool := decide (65 ≤ c) && decide (c ≤ 90)
def isLower (c : UInt8) : Bool := decide (97 ≤ c) && decide (c ≤ 122)
def isDigit (c : UInt8) : Bool := decide (48 ≤ c) && decide (c ≤ 57)

/-- `[A-Z0-9._]`. -/
def nameChar (c : UInt8) : Bool := isUpper c || isDigit c || (ascii "._").contains c

/-- `[._]`. -/
def punctuation (c : UInt8) : Bool := (ascii "._").contains c

/-- `.`, which matches no line terminator. -/
def anyChar (c : UInt8) : Bool := !(c == 10 || c == 13)

/-- `[^^~#!]`. -/
def beforeTag (c : UInt8) : Bool := !(ascii "^~#!").contains c

/-- `[^~#!\/]`. -/
def insideTag (c : UInt8) : Bool := !(ascii "~#!/").contains c

/-! ## Expressions -/

def ROOT_NAME_CHARACTERS : Regex UInt8 := atLeast 3 (chars nameChar)
def SUB_NAME_CHARACTERS : Regex UInt8 := plus (chars nameChar)
def UNIQUE_TAG_CHARACTERS : Regex UInt8 :=
  plus (chars fun c => isUpper c || isLower c || isDigit c ||
    (ascii "-@$%&*()[]\x7b\x7d_.?:").contains c)
def MSG_CHANNEL_TAG_CHARACTERS : Regex UInt8 :=
  plus (chars fun c => isUpper c || isLower c || isDigit c || (ascii "_").contains c)
def VOTE_TAG_CHARACTERS : Regex UInt8 := plus (chars nameChar)

def QUALIFIER_NAME_CHARACTERS : Regex UInt8 := cat (lit (ascii "#")) (atLeast 3 (chars nameChar))
def SUB_QUALIFIER_NAME_CHARACTERS : Regex UInt8 := cat (lit (ascii "#")) (plus (chars nameChar))
def RESTRICTED_NAME_CHARACTERS : Regex UInt8 := cat (lit (ascii "$")) (atLeast 3 (chars nameChar))

def DOUBLE_PUNCTUATION : Regex UInt8 :=
  cat (star (chars anyChar)) (cat (atLeast 2 (chars punctuation)) (star (chars anyChar)))
def LEADING_PUNCTUATION : Regex UInt8 := cat (chars punctuation) (star (chars anyChar))
def TRAILING_PUNCTUATION : Regex UInt8 := cat (star (chars anyChar)) (chars punctuation)
def QUALIFIER_LEADING_PUNCTUATION : Regex UInt8 :=
  cat (chars fun c => (ascii "#$").contains c) (cat (chars punctuation) (star (chars anyChar)))

def SUB_NAME_DELIMITER : UInt8 := 47
def UNIQUE_TAG_DELIMITER : UInt8 := 35
def MSG_CHANNEL_TAG_DELIMITER : UInt8 := 126
def VOTE_TAG_DELIMITER : UInt8 := 94

def tagIndicator (delimiter : UInt8) : Regex UInt8 :=
  cat (plus (chars beforeTag)) (cat (lit [delimiter]) (plus (chars insideTag)))

def UNIQUE_INDICATOR : Regex UInt8 := tagIndicator UNIQUE_TAG_DELIMITER
def MSG_CHANNEL_INDICATOR : Regex UInt8 := tagIndicator MSG_CHANNEL_TAG_DELIMITER
def OWNER_INDICATOR : Regex UInt8 := cat (plus (chars beforeTag)) (lit (ascii "!"))
def VOTE_INDICATOR : Regex UInt8 := tagIndicator VOTE_TAG_DELIMITER

def QUALIFIER_INDICATOR : Regex UInt8 := cat (lit (ascii "#")) (atLeast 3 (chars nameChar))
def SUB_QUALIFIER_INDICATOR : Regex UInt8 :=
  cat (lit (ascii "#")) (cat (plus (chars nameChar))
    (cat (lit (ascii "/#")) (plus (chars nameChar))))
def RESTRICTED_INDICATOR : Regex UInt8 := cat (lit (ascii "$")) (atLeast 3 (chars nameChar))

def UNEMPLOYCOIN_NAMES : Regex UInt8 :=
  alt (lit (ascii "UNEMP")) (alt (lit (ascii "UNEMPLOYCOIN"))
    (alt (lit (ascii "#UNEMP")) (lit (ascii "#UNEMPLOYCOIN"))))

/-! ## Parts of a name -/

/-- A part with characters from `r`, no two punctuation marks together, none in a place that
`leading` forbids, and none at the end. -/
def isPartValid (r leading : Regex UInt8) (name : Bytes) : Bool :=
  regexMatch name r && !regexMatch name DOUBLE_PUNCTUATION && !regexMatch name leading &&
    !regexMatch name TRAILING_PUNCTUATION

def isRootNameValid (name : Bytes) : Bool :=
  isPartValid ROOT_NAME_CHARACTERS LEADING_PUNCTUATION name && !regexMatch name UNEMPLOYCOIN_NAMES

def isQualifierNameValid (name : Bytes) : Bool :=
  isPartValid QUALIFIER_NAME_CHARACTERS QUALIFIER_LEADING_PUNCTUATION name &&
    !regexMatch name UNEMPLOYCOIN_NAMES

def isRestrictedNameValid (name : Bytes) : Bool :=
  isPartValid RESTRICTED_NAME_CHARACTERS LEADING_PUNCTUATION name &&
    !regexMatch name UNEMPLOYCOIN_NAMES

def isSubQualifierNameValid (name : Bytes) : Bool :=
  isPartValid SUB_QUALIFIER_NAME_CHARACTERS LEADING_PUNCTUATION name

def isSubNameValid (name : Bytes) : Bool :=
  isPartValid SUB_NAME_CHARACTERS LEADING_PUNCTUATION name

def isUniqueTagValid (tag : Bytes) : Bool := regexMatch tag UNIQUE_TAG_CHARACTERS

def isVoteTagValid (tag : Bytes) : Bool := regexMatch tag VOTE_TAG_CHARACTERS

def isMsgChannelTagValid (tag : Bytes) : Bool :=
  isPartValid MSG_CHANNEL_TAG_CHARACTERS LEADING_PUNCTUATION tag

def isNameValidBeforeTag (name : Bytes) : Bool :=
  match name.split SUB_NAME_DELIMITER with
  | [] => false
  | front :: parts => isRootNameValid front && parts.all isSubNameValid

/-- `IsQualifierNameValidBeforeTag`: at most **one** sub qualifier. -/
def isQualifierNameValidBeforeTag (name : Bytes) : Bool :=
  match name.split SUB_NAME_DELIMITER with
  | [] => false
  | front :: parts =>
    isQualifierNameValid front && decide (parts.length ≤ 1) && parts.all isSubQualifierNameValid

def isAssetNameASubasset (name : Bytes) : Bool :=
  match name.split SUB_NAME_DELIMITER with
  | [] => false
  | front :: parts => isRootNameValid front && !parts.isEmpty

def isAssetNameASubQualifier (name : Bytes) : Bool :=
  match name.split SUB_NAME_DELIMITER with
  | [] => false
  | front :: parts => isQualifierNameValid front && !parts.isEmpty

/-! ## Whole names -/

def MAX_NAME_LENGTH : ℕ := 31
def MAX_CHANNEL_NAME_LENGTH : ℕ := 12

/-- The parts of a name before the first and behind the last delimiter. -/
def tagParts (name : Bytes) (delimiter : UInt8) : Bytes × Bytes :=
  let parts := name.split delimiter
  (parts.headD [], parts.getLastD [])

def isTypeCheckNameValid (type : AssetType) (name : Bytes) : Bool :=
  match type with
  | .UNIQUE =>
    decide (name.length ≤ MAX_NAME_LENGTH) &&
      let parts := tagParts name UNIQUE_TAG_DELIMITER
      isNameValidBeforeTag parts.1 && isUniqueTagValid parts.2
  | .MSGCHANNEL =>
    decide (name.length ≤ MAX_NAME_LENGTH) &&
      let parts := tagParts name MSG_CHANNEL_TAG_DELIMITER
      decide (parts.2.length ≤ MAX_CHANNEL_NAME_LENGTH) &&
        (isNameValidBeforeTag parts.1 && isMsgChannelTagValid parts.2)
  | .OWNER =>
    decide (name.length ≤ MAX_NAME_LENGTH) && isNameValidBeforeTag (name.substr 0 (name.length - 1))
  | .VOTE =>
    decide (name.length ≤ MAX_NAME_LENGTH) &&
      let parts := tagParts name VOTE_TAG_DELIMITER
      isNameValidBeforeTag parts.1 && isVoteTagValid parts.2
  | .QUALIFIER | .SUB_QUALIFIER =>
    decide (name.length ≤ MAX_NAME_LENGTH) && isQualifierNameValidBeforeTag name
  | .RESTRICTED =>
    decide (name.length ≤ MAX_NAME_LENGTH) && isRestrictedNameValid name
  | _ =>
    -- Assets and sub-assets leave one character for the owner tag.
    decide (name.length ≤ MAX_NAME_LENGTH - 1) &&
      (isAssetNameASubasset name || decide (MIN_ASSET_LENGTH ≤ name.length)) &&
      isNameValidBeforeTag name

def indicatedType (name : Bytes) : AssetType :=
  if regexMatch name UNIQUE_INDICATOR then .UNIQUE
  else if regexMatch name MSG_CHANNEL_INDICATOR then .MSGCHANNEL
  else if regexMatch name OWNER_INDICATOR then .OWNER
  else if regexMatch name VOTE_INDICATOR then .VOTE
  else if regexMatch name QUALIFIER_INDICATOR then
    if isAssetNameASubQualifier name then .SUB_QUALIFIER else .QUALIFIER
  else if regexMatch name SUB_QUALIFIER_INDICATOR then
    -- The check below already asks for what makes the name a sub qualifier.
    .SUB_QUALIFIER
  else if regexMatch name RESTRICTED_INDICATOR then .RESTRICTED
  else if isAssetNameASubasset name then .SUB
  else .ROOT

/-- `IsAssetNameValid` with its out-parameter: the kind of a valid name. -/
def isAssetNameValid (name : Bytes) : Option AssetType :=
  if name.length > 40 then none
  else
    let type := indicatedType name
    if isTypeCheckNameValid type name then some type else none

/-- The out-parameter of `IsAssetNameValid` where the caller drops the result.  It is `INVALID`
for an invalid name; for one of more than 40 bytes the source leaves it unset. -/
def assetTypeOf (name : Bytes) : AssetType := (isAssetNameValid name).getD .INVALID

def isAssetNameAn (indicator : Regex UInt8) (name : Bytes) : Bool :=
  (isAssetNameValid name).isSome && regexMatch name indicator

def isAssetNameAnOwner : Bytes → Bool := isAssetNameAn OWNER_INDICATOR

def isAssetNameAnRestricted : Bytes → Bool := isAssetNameAn RESTRICTED_INDICATOR

def isAssetNameAQualifier (name : Bytes) (fOnlyQualifiers : Bool) : Bool :=
  if fOnlyQualifiers then isAssetNameAn QUALIFIER_INDICATOR name
  else isAssetNameAn (alt QUALIFIER_INDICATOR SUB_QUALIFIER_INDICATOR) name

def restrictedNameToOwnerName (name : Bytes) : Bytes :=
  if isAssetNameAnRestricted name then name.drop 1 ++ OWNER_TAG else []

/-- The delimiter before the last part of a name of one kind. -/
def parentDelimiter : AssetType → Option UInt8
  | .SUB | .SUB_QUALIFIER => some SUB_NAME_DELIMITER
  | .UNIQUE => some UNIQUE_TAG_DELIMITER
  | .MSGCHANNEL => some MSG_CHANNEL_TAG_DELIMITER
  | .VOTE => some VOTE_TAG_DELIMITER
  | _ => none

/-- `GetParentName`: the name up to its last delimiter, or the name itself. -/
def getParentName (name : Bytes) : Bytes :=
  match isAssetNameValid name with
  | none => []
  | some type =>
    match (parentDelimiter type).bind name.findLast with
    | some index => name.substr 0 index
    | none => name

example : getParentName (ascii "ROOT~CHAN") = ascii "ROOT" := by decide +kernel

example : isAssetNameValid (ascii "#TAG/#SUB") = some .SUB_QUALIFIER := by decide +kernel

end UnemployCoin
