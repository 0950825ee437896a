import Screener.Universe.Basic

/-!
The eight securities that stand in where no universe is configured.
-/

namespace Screener.Universe

def sample : List Security :=
  [⟨"600519", "贵州茅台", "白酒", 22000, 30.5, 0.8, 1688.2, 1.12,
      ⟨true, false, false⟩, ⟨"贵州", ["消费", "高端"]⟩⟩,
    ⟨"300750", "宁德时代", "新能源", 7200, 21.8, 2.3, 178.6, -0.85,
      ⟨false, false, true⟩, ⟨"福建", ["电池", "储能"]⟩⟩,
    ⟨"688981", "中芯国际", "半导体", 5400, 42.2, 3.8, 48.32, 3.26,
      ⟨true, true, false⟩, ⟨"上海", ["芯片", "国产替代"]⟩⟩,
    ⟨"002230", "科大讯飞", "AI应用", 1600, 95.4, 6.1, 46.8, 5.88,
      ⟨true, true, false⟩, ⟨"安徽", ["AI", "教育"]⟩⟩,
    ⟨"601318", "中国平安", "保险", 7400, 8.6, 1.4, 41.22, 0.32,
      ⟨false, false, false⟩, ⟨"深圳", ["金融", "红利"]⟩⟩,
    ⟨"000858", "五粮液", "白酒", 5400, 24.2, 1.2, 132.6, -1.42,
      ⟨false, false, true⟩, ⟨"四川", ["消费"]⟩⟩,
    ⟨"600036", "招商银行", "银行", 9000, 6.8, 1.1, 33.48, 0.62,
      ⟨true, false, false⟩, ⟨"深圳", ["红利", "金融"]⟩⟩,
    ⟨"300059", "东方财富", "券商科技", 2300, 35.5, 4.9, 16.92, 2.04,
      ⟨true, false, false⟩, ⟨"上海", ["券商", "互联网金融"]⟩⟩]

end Screener.Universe
