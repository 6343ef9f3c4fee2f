import TwinScreen.Text.Hexadecimal

/-!
# The font of the messages

The font file in which the messages below the titles are set, in hexadecimal digits.
-/
namespace TwinScreen.Resource

def bodyFontDigits : String := String.join [
    "000100000008000000000000636d6170000000000000008c0000005c676c796600000000000000e800000f846865",
    "6164000000000000106c000000366868656100000000000010a400000024686d747800000000000010c800000198",
    "6b65726e0000000000001260000000546c6f636100000000000012b4000000ce6d61787000000000000013840000",
    "002000000001000300010000000c0004005000000010000000000000007e00e900f13000304265e5ff01ffff0000",
    "002000e900f13000304265e5ff01ffffffe1ff77ff70d062d0219a7f016400010000000000000000000000000000",
    "00000002003c000001b802bc00030007000033112111252111213c017cfeb60118fee802bcfd4432025800020050",
    "ff640293021400040009000036363706012527172501a6ed58ee0196fe276a10010dff00d768d588fe59c7f341ac",
    "fd5a000101c5ffdb024f01170002000000113701c58a0117fec41d000000000101aeff70023e01bf000200000117",
    "1301ae464a01bf86fe37000000020024ff7d011402540004000a00003712021312021303130237ca0f443d42f0ca",
    "a627499ec4013efe3f011bfeac015cfe1902d7fd4c016cad0000000100bf000b0200021a000400003601132512e9",
    "011205febfc9ac016efe2ce6fedf000000020020ff79011402660002000500001303160307129d2ea548ac830266",
    "fde2cf0207e501440000000100ef005d0223024500050000251207031324017e5d9d0ef3fecc5d01e87dfeda013e",
    "6000000000020047ff6c00c5025b000200050000160227372616c56d115c4d2c9401930f8ac3b00000020039ff70",
    "0134027c00040009000013120703120237031216d064d12a9d62b5d68a0701defe1785018a0182fe14b8fee20179",
    "e60000000001007000900185025a000200002401130185feebea9001cafeb50000010017ffb4010c021100050000",
    "240203031317010c4a07a4640908011cfe90010d0150b0000000000100460127021402b000030000011103010214",
    "29fe5b012c0184fe77017d0000020025ffbd02290202000500090000010125050006361727160229fe20010afed2",
    "0160e6767454270202fdbbfa1d013e9f12d66af700000002003fffc100e902930005000800001307371306131327",
    "037d261e053b169403160103579d014a1bfd49022c40fe5c00020048ff5701300156000200070000240617170317",
    "07030130c54080e3de04458c7306ac015fa8c701ff000001001effef01fd02b00005000025010325130101c8fe5a",
    "0401ac33fef1f90134fdc2d901e8fed200010018ff900173020e0003000016372601c626d4015b7017a901be0002",
    "0091003a02d201d500020007000025020706053625040273798e61017651fdbf02303a019bd32137197fd5000000",
    "00010070ff9200e3026000050000371603122702cf06606e3043ad1701cafee19afdb70000020038ffb9019101fb",
    "000300080000011206130337273703012869a756140f890b8501fbfe73b5021ffe187b6583feaf00000000020039",
    "fff801aa02a70004000700002506010303130204014ff3010848e35b520168b7370162febf0206fd51020af10001",
    "00dcffd802a0024a0003000037050303dc01c4a215693f0220fd8e000000000100c9001a019402b6000500003716",
    "03073702ccc8730d3b86684e025a80c2fe33000000020031ff8600e802010004000a000013131307160212130707",
    "1377180a58a7b70bac574c300201fdeb0113a5d401eafeb8015dfaa5018800010025ffc000f7027b000300001326",
    "03137e3326d202601bfef8fe4d00000000020039ff6901330278000200080000363702130307020316f31d305306",
    "17ba23688555fece02d0fe721cfe9b0204dd0002001dff7f01a601f5000500090000051703032717012513020120",
    "4e0e9b9c33014afec85aab5d240146fee0213401c22efeb301c000000001001effb101d0029c0004000012030401",
    "01bfa101b2fe590116029cfdd95101aafde300010028ff5a01f302ab0004000012050212122801aaa2a221019425",
    "fdeb0233011e00000002002effaa00f0029700030009000017023703260337030316521dbb2e3e56873938235602",
    "17d6fdcc6c01081efe3c01cc9e000001009effc6023202b2000400001303050024d7390194fe80010702b2fefb7a",
    "fe93650000010047ffe400c701ef00050000132703121237c3403c5f0120011ed1fe0e01edfdfa1700020040ffab",
    "0204024800030007000037010101050713124001c4feb30134fec103680d3f0209fd63021574e20100fee7000000",
    "000101c8ffd1022802630002000000130301c8605701b7fe1a0292000001001cffac00e800ed000200001712131c",
    "884432011ffebf0000000001001eff6b01b200610003000005172435014270fe6c692c8076000001004500c301a5",
    "021e00040000131727010550a4af0160fefe01f2406cfed32e0000000001003f009e0178026d0003000025031226",
    "0178e171c99e01cffe403d0000000001006afff101db029f0005000001040101250301d9ff000102fe8f015a9602",
    "1904fddc02208efde300000000010040ffd7007d0257000300001311031664243d014a010dfd84040001004b0018",
    "010000ab00040000252607162701004e6751436b4002910c0000000100a6ff670238010d0003000004072501013c",
    "960192fe8c405944016200000002006aff5e00ea013a0004000700001203261217063707ea364a6704484207013a",
    "fecdfffee5263abce9000001003dff8e021102ba000500003727130107375e213d014a73c0a1a2fe4b02df85d200",
    "0001001b0000022e028f000500001207010305009b80014a62012bfe3001d4a7fed3028fdefe7400000100ca0035",
    "020c020b0003000001030327020c4310ef018efea701c21400000001001e004d01f9022d000300000124010101ed",
    "fe3101dbfe9e011168fed401e000000000010024ff560166022200050000121213050304f26113feea2c010001f2",
    "fd6402ccadfe705500000001002aff6f01c4028200050000051300363706015272fe6650f095910313fd83e4f552",
    "0001004bfff1010e025f00030000161326064bc398280f01c9a5e5000001005eff8a012d014d0005000017130327",
    "1726d15c3c939b3c32017ffe3dd797ab000000020030ff5b02ed02840005000b0000010103160301242405040712",
    "028afde23cfcec02adfd53025cfe940159806b01c6fdb101e8d4fed001bef943a7677701b400000000010086ffc8",
    "01cc02b4000400000105050037019dfee90146fee85102b4371ffd6a130000020035ffce0177027b000300060000",
    "133617121301123501278d8dfecee902156618fd6b01d5fec001a2000001009b000f018202430003000000070302",
    "01821229ac010dfe0234fe48000000010089ff5b0121001b00030000173723169e8398311833c00000000002008e",
    "0089021801ef0002000600000105072507070301eafedc38018a66263d012556467d0d5c01520000000200a3ffad",
    "01a5028600020008000025023737021713260301015e823a909e38b443030116451e010abbfde28401fd000101cf",
    "0036020002b00002000025031201fd2e3136027afe9e000000020088ff720129023c000500090000250313021317",
    "0303033701094054643f31252c50256f0154fdfa01d1fe3d5901dafeeb02040100000002006fff7102ff02a80005",
    "000a0000000703130336052502073602ff39a5ba4754fd87026014b846029d2bfd5b0122fe82b32b410250c4e200",
    "0000000100180094021c029900040000131204252518bc0148fe16018b0299fec2c71d730000000100d8ffd60171",
    "0156000400001713172713d8483478951501274286fe800000010133fff2025101bc000300000002260602510121",
    "fc01bcfe7156910000000002002affa001ef0233000200060000370737131705259c72ea01dafe6f012a52b21302",
    "8049983800010019007f01db02ad0005000001170713250101a13ab77efe77015102ada906fe813f01de00000002",
    "003aff9202e502230002000700000001011225361701013f01a6fedcecfdb81df1fec701f6feb8fefd0108d898f3",
    "fe62000000010094013601e202ba00030000000700060166d2014e4d019b6501846d000000020021ffaf00b502b6",
    "00030006000012030212271306af8905945f2539022ffe93feed01640e01952700000002005eff86012202770004",
    "000700000106131712031713011bbd6a0456c0a607024084fe75ab02f1fed5f90100000000020016ffba012201f7",
    "00040007000017021326261707078d54e96aa2fc1a9e46023dfe19a32b195f8600000001004affc10178028d0003",
    "0000240513070178fed2e18196d502ccbd0000000002007aff6201a7024600020006000005130707361337011b71",
    "c54d78a0159e01452989970115a500010031ffe401fe02480005000025120137131301e519fe33169dcbe4ff0001",
    "9f57feaa01c4000000010065ffb60166019600020000011205015f07feff0196fe2a0a0000020078ffd90219029f",
    "000200060000010124060037010210fe9501743cfe9b630132029ffdc7248901f876fd6a00000002003dffd200c7",
    "028b000500080000130707023603272711c7720810600a09470281cbdc01aa07fd4747bc013b00000001006dff98",
    "015f00f300020000050337015ff265680123380000000002001a003a012b02180002000500003703031327018522",
    "22ea0ffefe3a01adfed0013031fe850000020058ff95022d029d00050008000013002626131703050358013c7596",
    "b50f210101410176fe5f8b2b02124ffd702902f80000000100440005013402aa0003000037130302f14313dd5c01",
    "0f013ffd5b0000000001006affe7025502b7000500001712121301176a2ed1ecfedc09190279fe6a01edfe2bb800",
    "000000010057ff990108028f0003000013130703d2369918028ffd615702d70000000001001bff5a022a00f70002",
    "0000050116022afdf13ea6019d3f000000010035001e011501ca0003000037121227700c99e0a50125fe54f40001",
    "0029ff5b012301ad00050000170302121306a649340feb15a501290129fdce013daf0001002d001501cf02810004",
    "000024031301250185e21f010dfe5e15021cfe2001d35d0000020022ff76010c020f000400090000130617271317",
    "27031302de637055581e21b4051a020f72dcaafec6bb49023efdf6017b0000020022002501e40283000200070000",
    "371202131601030522e690aeb9feb83e018b25025efe18016c2dfe590186ee000001004cffdd013302b400050000",
    "00061737033701255d313ae71502b40f3c4bfd293600000200a7ff8101f4024c00030006000037130700011326d3",
    "3460014dfee65a55ce017e3afda401d9fdf2960000010056014000e502b000040000131237370772530d138f02b0",
    "febe6419ab0000020027ff7302ee02b90002000800001301051302370401042702c7fedf678ba4fecd0165fdaa01",
    "e3fe135f02cbfd11cc890303220000000002003fff5f00e3026a000300080000370316120312271307dd994a5353",
    "55a42306cb019f80fdc60192fe1d8e016341ffff00000000000000000022004600000003000800280096ffff0000",
    "000000000000002a004f000030000043005f003c012c20005000000000010015ffdd0203031f0007000036132513",
    "03062526159001045a0342febc1fe9fef4df0263fd7a2a9b970000030064ffb00384032000030007000b00001711",
    "21112521112135211121640320fd300280fd800280fd80500370fc9050014a4601400000ffff0000000000000000",
    "0083000200c8fed420001000f000400000000001000000000000000000005f0f3cf5000003e80000000000000000",
    "000000000000000000000000000000000000000000000000000000000001000003a0ff14005a0000000000000000",
    "00000000000000000000000000000000006601f40000021200000322000002590000025900000136000002720000",
    "014f00000263000000fa0000014f000001b10000014f0000031300000272000000fa0000014000000221000001ca",
    "00000309000000fa000001b1000001b1000003130000020800000109000001ca00000140000001bb000002630000",
    "021200000140000002720000010900000259000002590000032200000263000001b1000001b100000208000000fa",
    "0000022100000259000000f00000025900000259000002720000021200000208000002120000014f000001360000",
    "030900000212000001b1000001bb000001ca00000272000001ca000002080000014f000003220000027200000212",
    "000002590000026300000212000003090000026300000109000001400000014f00000208000001ca000002590000",
    "01ca00000272000000fa000001b10000014f000002590000025900000272000001ca000002630000031300000136",
    "0000021200000140000002720000014f0000025900000109000003220000013600000208000001e0000003e80000",
    "03e8000003e8000003e8000000000001000000500001000b00000000000000010035ffec00120012ffc700220037",
    "ffb00023002a000500350050ff9100370022ffb600460053fff70047004a0021004900420003004f0050ffff0050",
    "0001000c000000140014002e003c004a0068007a008e00a200b400d000de00f20102011e0136014c0160016e0186",
    "019801b201ca01da01ec020802180230024c025e0270028a029c02ae02c802d602e402f203040314032a03380348",
    "0358036e0380039403a403b603ca03dc03ea03fc041e0430044604560464047a049204a004bc04da04ec04fc050c",
    "05200534054e055e0574058c05a205b205c605da05e8060006180626063a0654066406780688069606a406b606c8",
    "06e206fa070c07220732074e0766077207820782079807b407c20000000100000066000000000000000000000000",
    "0000000000000000000000000000"]

def bodyFontBytes : Array UInt8 :=
  (Hexadecimal.bytes bodyFontDigits.toList).toArray

end TwinScreen.Resource
