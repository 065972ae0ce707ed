import Mathlib.Data.Int.Notation
import UnemployCoin.Names
/-!
# Chain parameters and the state of the deployments

What a validation routine reads besides its arguments: the chain parameters that
`GetParams()` returns (`chainparams.h`), the activation state of the deployments, the two hash
functions, and the process flags.  They stay fixed while a block is checked.
-/

namespace UnemployCoin

/-- The fields of `CChainParams` that the asset rules and the block reward read. -/
structure CChainParams where
  pubkeyAddressPrefix : Bytes
  scriptAddressPrefix : Bytes
  hashGenesisBlock : uint256
  nSubsidyHalvingInterval : ℕ
  nIssueAssetBurnAmount : CAmount
  nReissueAssetBurnAmount : CAmount
  nIssueSubAssetBurnAmount : CAmount
  nIssueUniqueAssetBurnAmount : CAmount
  nIssueMsgChannelAssetBurnAmount : CAmount
  nIssueQualifierAssetBurnAmount : CAmount
  nIssueSubQualifierAssetBurnAmount : CAmount
  nIssueRestrictedAssetBurnAmount : CAmount
  nAddNullQualifierTagBurnAmount : CAmount
  strIssueAssetBurnAddress : Bytes
  strReissueAssetBurnAddress : Bytes
  strIssueSubAssetBurnAddress : Bytes
  strIssueUniqueAssetBurnAddress : Bytes
  strIssueMsgChannelAssetBurnAddress : Bytes
  strIssueQualifierAssetBurnAddress : Bytes
  strIssueSubQualifierAssetBurnAddress : Bytes
  strIssueRestrictedAssetBurnAddress : Bytes
  strAddNullQualifierTagBurnAddress : Bytes
  fTestNet : Bool

/-- Which rules are active, as the `Are…Deployed` functions of `validation.cpp` say. -/
structure Deployments where
  areAssetsDeployed : Bool
  areMessagesDeployed : Bool
  areRestrictedAssetsDeployed : Bool
  areEnforcedValuesDeployed : Bool
  areCoinbaseCheckAssetsDeployed : Bool
  areTransferScriptsSizeDeployed : Bool

def Deployments.all : Deployments := ⟨true, true, true, true, true, true⟩

def Deployments.none : Deployments := ⟨false, false, false, false, false, false⟩

/-- What a check reads besides its arguments. -/
structure Env where
  Hash : Bytes → Bytes
  Hash160 : Bytes → Bytes
  params : CChainParams
  dep : Deployments
  fReindex : Bool
  /-- What the stack holds, for the output `(hash, n)` of a reissue, where `AddReissueAsset` and
  `RemoveReissueAsset` declare a height and do not set it. -/
  uninitHeight : uint256 → ℕ → ℤ

def CChainParams.getBurnAmount (params : CChainParams) : AssetType → CAmount
  | .ROOT => params.nIssueAssetBurnAmount
  | .SUB => params.nIssueSubAssetBurnAmount
  | .MSGCHANNEL => params.nIssueMsgChannelAssetBurnAmount
  | .UNIQUE => params.nIssueUniqueAssetBurnAmount
  | .REISSUE => params.nReissueAssetBurnAmount
  | .QUALIFIER => params.nIssueQualifierAssetBurnAmount
  | .SUB_QUALIFIER => params.nIssueSubQualifierAssetBurnAmount
  | .RESTRICTED => params.nIssueRestrictedAssetBurnAmount
  | .NULL_ADD_QUALIFIER => params.nAddNullQualifierTagBurnAmount
  | .OWNER | .VOTE | .INVALID => 0

def CChainParams.getBurnAddress (params : CChainParams) : AssetType → Bytes
  | .ROOT => params.strIssueAssetBurnAddress
  | .SUB => params.strIssueSubAssetBurnAddress
  | .MSGCHANNEL => params.strIssueMsgChannelAssetBurnAddress
  | .UNIQUE => params.strIssueUniqueAssetBurnAddress
  | .REISSUE => params.strReissueAssetBurnAddress
  | .QUALIFIER => params.strIssueQualifierAssetBurnAddress
  | .SUB_QUALIFIER => params.strIssueSubQualifierAssetBurnAddress
  | .RESTRICTED => params.strIssueRestrictedAssetBurnAddress
  | .NULL_ADD_QUALIFIER => params.strAddNullQualifierTagBurnAddress
  | .OWNER | .VOTE | .INVALID => []

def CMainParams : CChainParams where
  pubkeyAddressPrefix := [68]
  scriptAddressPrefix := [125]
  -- What the constructor asserts; the hash of the block that it builds is another one.
  hashGenesisBlock := 0x000007cf5c3dbe4e0b59ecbb9e7d50ad48d90557e34a06b3b28522ffb1cb8799
  nSubsidyHalvingInterval := 2100000
  nIssueAssetBurnAmount := 500 * COIN
  nReissueAssetBurnAmount := 100 * COIN
  nIssueSubAssetBurnAmount := 100 * COIN
  nIssueUniqueAssetBurnAmount := 5 * COIN
  nIssueMsgChannelAssetBurnAmount := 100 * COIN
  nIssueQualifierAssetBurnAmount := 1000 * COIN
  nIssueSubQualifierAssetBurnAmount := 100 * COIN
  nIssueRestrictedAssetBurnAmount := 1500 * COIN
  nAddNullQualifierTagBurnAmount := 10000000
  strIssueAssetBurnAddress := ascii "UNissueAssetXXXXXXXXXXXXXXXXXXxyZ"
  strReissueAssetBurnAddress := ascii "UNReissueAssetXXXXXXXXXXXXXXXabcD"
  strIssueSubAssetBurnAddress := ascii "UNissueSubAssetXXXXXXXXXXXXXYqweT"
  strIssueUniqueAssetBurnAddress := ascii "UNissueUniqueAssetXXXXXXXXXXXpLmN"
  strIssueMsgChannelAssetBurnAddress := ascii "UNMsgChannelAssetXXXXXXXXXXXhTrE"
  strIssueQualifierAssetBurnAddress := ascii "UNissueQualifierXXXXXXXXXXXXTgbV"
  strIssueSubQualifierAssetBurnAddress := ascii "UNSubQualifierXXXXXXXXXXXXXXasSd"
  strIssueRestrictedAssetBurnAddress := ascii "UNRestrictedAssetXXXXXXXXXXXErTz"
  strAddNullQualifierTagBurnAddress := ascii "UNTagBurnXXXXXXXXXXXXXXXXXXXvBnM"
  fTestNet := false

end UnemployCoin
