import TwinScreen.Text.Hexadecimal

/-!
# The font of the titles

The font file in which the titles of both screens are set, in hexadecimal digits.
-/
namespace TwinScreen.Resource

def titleFontDigits : String := String.join [
    "000100000007000000000000636d6170000000000000007c000000c4676c79660000000000000140000002e86865",
    "616400000000000004280000003668686561000000000000046000000024686d7478000000000000048400000058",
    "6c6f636100000000000004dc0000005c6d61787000000000000005380000002000000001000000040000000c000c",
    "0000000000b8000000000000000e0000002000000021000000010000002700000027000000030000002e0000002e",
    "000000040000003a0000003a000000050000004800000048000000060000004f0000004f00000007000000610000",
    "00610000000800000063000000650000000900000068000000680000000c0000006c0000006c0000000d0000006e",
    "0000006f0000000e0000007200000075000000100000007700000077000000140000007900000079000000150001",
    "0064000004b00578000200003300016402bc01900578fa880000000100a802d9054b04da00040000010005252705",
    "4bfcf4fe6903279502d901aa9d35bf00000100bcfeb7029a03f4000400001337000301f826017c52fe7401285c01",
    "3f0131fac30000010086feda01d50577000400000003133605016d88cc24feb1feda069dfdd5323b0000000100cd",
    "ff6302060504000400001701071202cd0139dddbec9d035b7e02c4fa6f000000000100b900e0022e048e00040000",
    "240300260201317801752f60e003aefec4cbfe290000000100d6ff2a03fd0442000400000903100393fd43012102",
    "0601f9feb6018bfcf00518000001003bfecc048e053c0004000013000226053b033b7186020f053cf990039a797c",
    "0000000100a9fed5021a04d500040000040713060201a14ec798d99695020f3f043000010112fee2027604900004",
    "00000003371b010114025526e902a3fda8abfdec05ae000000010155fee2028703ca000400000103370700021c91",
    "164c013203cafec47277fc59000000010134ff1103d4051700040000002403020503d4fe5a807a027404d245f9fa",
    "0142b0000001007cfec5030605190004000012010413117c028afe152504e9fe0dc502e8f9ac000000010043018e",
    "02aa03e300040000012705160602aa35fdcee1c203e201a2ddd6000100dafefd031c0358000400001f01360412da",
    "2572011497d2232230045b00000101f6fea3044d04e800040000011200090103d37afdf201e5fdd204e8f9e201d4",
    "fe0505cb000000010031ff8603e7046d00040000050103000103aefdfd35febb03b67a022b02bcfc390284000000",
    "00010170ff3003f3033f00040000250203010003f388c2fec7010b5c01d0fd04040ffec4000100adff98043c04e3",
    "00040000000117242501ac02365afdbafeb704e3fbb3fe996a000001009fff08048b04d400040000040901003704",
    "8bfdcc016afcdeedf805ccfb9a0334be00010152ff08029f0251000400000537270200019d5b8026014d83e3edfd",
    "bb03490000000001000000000000000000005f0f3cf5000008000000000000000000000000000000000000000000",
    "0000000000000000000000010000000000010000076dfe1d00000000000000000000000000000000000000000000",
    "00000000001604cd0000023000000578000003fd00000230000003fd000002300000049c0000049c000002300000",
    "02bc000002bc0000049c0000049c000002bc000005780000049c000003fd000003fd0000049c0000049c000002bc",
    "0000000000000000001c0000001c000000400000006400000088000000ac000000d0000000f40000011800000138",
    "0000015c00000180000001a4000001c8000001e80000020800000230000002580000027c000002a0000002c40000",
    "02e80001000000160000000000000000000000000000000000000000000000000000"]

def titleFontBytes : Array UInt8 :=
  (Hexadecimal.bytes titleFontDigits.toList).toArray

end TwinScreen.Resource
