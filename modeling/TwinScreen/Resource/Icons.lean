import TwinScreen.Text.Hexadecimal

/-!
# The icons

The image files of the icons of both screens, in hexadecimal digits.
-/
namespace TwinScreen.Resource

/-- The image file of the top screen. -/
def errorIconDigits : String := String.join [
    "89504e470d0a1a0a0000000d49484452000000300000003008060000005702f987000003d64944415478daed99fd",
    "4b144118c73df5f7202228aaa310ea877e102e53e80741b2b0a2a01708c2de4e8ae2283c8a8a8bba85a25014ad50",
    "0a437a93a08882242b8a1345530445498c42b8488a28a8bfc0be03b372ad3befb38b520b5f386e76679e9d793ef3",
    "3cf36c5ede3cbf22410f30fd29fb305214dd1b54fff9160d6d816e426d503b74177a40db1e414fa067d073e805f4",
    "cac6b805864637a44fd46e81b6d2c950129e3b081d86e2ceb5a6761d1b0a350dbf62faf23e7df6913ee16ea541fb",
    "f425f202501d5901a809bace7221c200cb85a0375006ea212f000d404381408c8e2fd0590f4503159b8bcb3e4f44",
    "ac40fc6ec59a6974e884b53512e3dd718d21ceed64eacefdf26507aa7b748095158c2fc91dbf66c1a274dbef1f8e",
    "16c47e33800152a56f5f5e0d68e6d7b3ec907127afcf27c9832cd9865830d64768520962f20214a63ad63d588946",
    "4bc09673c6f8e0de872d769514c430fe644e07e7384b9eb4e0363ce3c73d76658510e3a684172c809b01c0157e83",
    "e0ff32b40f6a02bb9163fc18237a9f42d46e548ec4e8f0226b2bc5ff09b4b72ace7c2567ac11ad488fd93f465680",
    "b81061003a0d9d85522490418e00362988057d0c41c3d028f41e9a7021262e047d81befa424c5e4012ba1467f66e",
    "0b9eddce797650167c00bd443b9de6c5011818e7b4f18cef374aa731fb47540004b8fd00780303ec62b48f7a80dd",
    "c531be5723153f0398eb0b4db6401207585b29feaf467b07fdbd9bd347b795d49cac800cc47ee9340f4a01b0bee9",
    "b40cc4d0f7bf20a62e64124d138aabf7da348203e4c5d6cec42a7100f776d91a77c6f70045cc341506b8c3003826",
    "30bed356ea3d0331dc273e1f6b42b0fba71588dd745a015eee99f83fc41a297142e399ca3901310ca9e5cc7207c0",
    "1e07d86b19117b25dab3c6101bcc7c9263fc3d7782f0fb312b1a93030d4d25c28dc402487dd369c1336610ff33e9",
    "b4c0f85b12bb4fa76a5945bab005904b04c0a605a9846cc49e04c0450cb097a2fd9b04c00db3cec45896567aa8f7",
    "9b1d8763fc0dd59498c401d6564a4a8bf450ef5fd0a5eec3827916c402f88c0a5b82be7d211616b6685da860ae15",
    "b628bc5161610b3735d3a5e4195f6f3115efe580bd3ac7aea87475baea69579fe0506fb52a0d70a700f07206d80b",
    "d1fe0be0364b57a74935d8af3a0de32fdbfebc941b07585ba95f5d54eaf240e584f189c90bb3f12726d209292d86",
    "fd89c9f504e34f4cca1f17ecb8d398ccb8d2be0c80baa10ca27545909f9888e0ef318c255524504ea7d1f979fa9d",
    "38900bfdaf0bf3506d0d62ed17b6f8322d1a67da4da6e3e65b5cfae3d051a8063a04ed87f6d1b63dd04e6807b40d",
    "aab2613cb9fe00482c9bbc2c09f4fd0000000049454e44ae426082"]

def errorIconBytes : Array UInt8 :=
  (Hexadecimal.bytes errorIconDigits.toList).toArray

/-- The image file of the bottom screen. -/
def sorryIconDigits : String := String.join [
    "89504e470d0a1a0a0000000d49484452000000300000003008060000005702f987000002554944415478da636018",
    "e28091d6167cf8b0e0b78040022badcc67a2a243bf63c340a93f78e42806cc143afa73454540150803b9ff48c530",
    "bd20dcd1b1a19d1c37b090e9f0f750e61f2ac620d84c607213a4759a7e4d6b4c934c0c34f839bd4b18606c485225",
    "13031dff189a5ce88aa1f65296898186dc272783520b0333780130834f242b13031d7f9b9a1995827c771b989c54",
    "49d5747db06192323150c3e5c1d66c00c6822e519918e8f8f303916989c8d4e7096662a0a2d303996989c8d469c0",
    "4c3d1b5f26fec330540130f40f0f158c35130325f60f95c0066668476c99f8cf10c2a8991818fadb0773e6c59299",
    "6380997929cbb0c8bcd018583fd4304a26060aac1e6a810eccc8a14c433403c333323c13033345c050cac4200ccc",
    "c4eb59a0c967fe50ccc45077c339b3871a46cfc4d3876026ce1c5699d86d0866e29dc3aa266e1f6a185b73ba9954",
    "8febf994d4501a7897b6f4b49091816b296e4e53c3f148814059731a9a916d88cd40404b9ba89984a72fdbe59019",
    "e5b687840c7c18a34f0c8c965660322a2722c43a68910f81e6b60093530511c9a7135f662ec687e56c44fed31a13",
    "7203c1812da0a27c1c2134815ea52230260a7084fe4482035b5045e81976023d8b75a87d286e40773cded1696086",
    "3642cab0d306a26e02666c2f60c6de849471cf123d3a0df4ed4c60524a063a7ece4056b040fb670093530ad03d73",
    "c932801e999610a6788a899021b4048f8ebc61a4788a89902103e578a2a69860e0e3a36f8d20cc2fc7d5400f8783",
    "ec22462d0b3986d33249d135b6e9955129cec4b4cae8d4086d266a463d364c488e520000dc2784969024fad50000",
    "000049454e44ae426082"]

def sorryIconBytes : Array UInt8 :=
  (Hexadecimal.bytes sorryIconDigits.toList).toArray

end TwinScreen.Resource
